import RouteLoom.Lib.Stores
import RouteLoom.Security.SessionBank
import RouteLoom.Wire.Bytes

/-!
# The session record in RTC memory

`sdkv1_session_rtc.cpp`: the image of one or two sessions that a deep sleep keeps, and the record of
346 bytes that holds it. A port writes the record byte by byte and its commit word last.

* `encodeRtcSession`, `decodeRtcSession` : the record of an image, and what a wake accepts
* `readRecord_encode` : the record of a valid image reads back
* `readRecord_torn` : a write that was cut off leaves the old record, the new one, or no record
-/

namespace RouteLoom.Rtc

open Lib

def kMagic : UInt32 := 0x524C5443
def kCommitted : UInt32 := 0x52544331
def kLifetime : UInt32 := 24 * 3600 * 1000
def kUseLimit : UInt64 := 0x100000000
def kRtcSessionRecordSize : Nat := 346
def kContext : Nat := 136
def kCrcOffset : Nat := kRtcSessionRecordSize - 4
def kRtcSessionMaxContexts : Nat := 2

structure RtcSessionContext where
  scope : SecurityScope := .link
  entry : SessionBankEntry := {}
  deriving DecidableEq

/-- The image. The source's `count` is the number of its contexts. -/
structure RtcSessionImage where
  sourceBoot : UInt32 := 0
  network : NetworkId := 0
  localGeneration : UInt32 := 0
  siteCommit : UInt32 := 0
  gkEpoch : UInt32 := 0
  rsFloor : UInt32 := 0
  kidDigest : Vector UInt8 16 := .replicate 16 0
  parentMac : Vector UInt8 6 := .replicate 6 0
  parentBinding : UInt32 := 0
  contexts : List RtcSessionContext := []
  deriving DecidableEq

structure RtcWakeCheck where
  deepSleep : Bool := false
  sleepMarker : Bool := false
  trustedElapsedMs : UInt32 := 0
  nextBoot : UInt32 := 0
  network : NetworkId := 0
  localGeneration : UInt32 := 0
  siteCommit : UInt32 := 0
  gkEpoch : UInt32 := 0
  rsFloor : UInt32 := 0
  kidDigest : Vector UInt8 16 := .replicate 16 0
  deriving DecidableEq

/-! ## Valid images -/

def contextValid (gkEpoch : UInt32) (scope : SecurityScope) (c : RtcSessionContext) : Bool :=
  c.scope == scope && idValid c.entry.peer && c.entry.txCid != 0 && c.entry.rxCid != 0 &&
    c.entry.flags == 0 && c.entry.remainingMs != 0 && c.entry.remainingMs ≤ kLifetime &&
    c.entry.createdGk != 0 && c.entry.createdGk ≤ gkEpoch &&
    gkEpoch.toUInt64 - c.entry.createdGk.toUInt64 < 2 && c.entry.txNext < kUseLimit &&
    c.entry.rxMax < kUseLimit

def valid (image : RtcSessionImage) : Bool :=
  image.sourceBoot != 0 && image.network != 0 && image.localGeneration != 0 &&
    image.siteCommit != 0 && image.gkEpoch != 0 && image.parentBinding != 0 &&
    image.parentMac != .replicate 6 0 && image.parentMac != .replicate 6 0xff &&
    match image.contexts with
    | [c] => contextValid image.gkEpoch .link c
    | [c, d] => contextValid image.gkEpoch .link c && contextValid image.gkEpoch .endToEnd d
    | _ => false

/-! ## The layout -/

structure RecordHead where
  magic : UInt32
  version : UInt16
  size : UInt16
  marker : UInt32
  deriving DecidableEq

def RecordHead.layout (h : RecordHead) : List UInt8 :=
  bigEndian 4 h.magic.toUInt64 ++ (bigEndian 2 h.version.toUInt64 ++ (bigEndian 2 h.size.toUInt64 ++
    bigEndian 4 h.marker.toUInt64))

def committedHead : RecordHead := ⟨kMagic, 1, kRtcSessionRecordSize.toUInt16, kCommitted⟩

/-- The image without its contexts, the number of contexts and the profile tag. -/
def frameLayout (image : RtcSessionImage) (count profile : UInt8) : List UInt8 :=
  bigEndian 4 image.sourceBoot.toUInt64 ++ (bigEndian 8 image.network ++
    (bigEndian 4 image.localGeneration.toUInt64 ++ (bigEndian 4 image.siteCommit.toUInt64 ++
      (bigEndian 4 image.gkEpoch.toUInt64 ++ (bigEndian 4 image.rsFloor.toUInt64 ++
        (image.kidDigest.toList ++ (image.parentMac.toList ++
          (bigEndian 4 image.parentBinding.toUInt64 ++ (bigEndian 1 count.toUInt64 ++
            (bigEndian 1 profile.toUInt64 ++ bigEndian 2 0))))))))))

variable (c : RtcSessionContext) (contexts : List RtcSessionContext)

def contextLayout : List UInt8 :=
  bigEndian 1 c.scope.code.toUInt64 ++ (List.replicate 7 0 ++ (bigEndian 8 c.entry.peer ++
    (bigEndian 8 c.entry.txNext ++ (bigEndian 8 c.entry.rxMax ++ (bigEndian 8 c.entry.rxBitmap ++
      (c.entry.txKey.toList ++ (c.entry.rxKey.toList ++ (c.entry.txIv.toList ++
        (c.entry.rxIv.toList ++ (c.entry.peerCertId.toList ++ (bigEndian 4 c.entry.txCid.toUInt64 ++
          (bigEndian 4 c.entry.rxCid.toUInt64 ++ (bigEndian 4 c.entry.peerGeneration.toUInt64 ++
            (bigEndian 4 c.entry.peerRole.toUInt64 ++ (bigEndian 4 c.entry.createdGk.toUInt64 ++
              (bigEndian 4 c.entry.remainingMs.toUInt64 ++
                (bigEndian 4 c.entry.installSerial.toUInt64 ++
                  bigEndian 4 c.entry.flags.toUInt64)))))))))))))))))

def contextsLayout : List UInt8 :=
  contexts.flatMap contextLayout

/-- The bytes after the used contexts, up to the checksum. -/
def unusedLayout : List UInt8 :=
  List.replicate ((kRtcSessionMaxContexts - contexts.length) * kContext) 0

def frontLayout (profile : UInt8) (image : RtcSessionImage) : List UInt8 :=
  committedHead.layout ++ (frameLayout image image.contexts.length.toUInt8 profile ++
    (contextsLayout image.contexts ++ unusedLayout image.contexts))

/-- The record of an image that a build with this resource profile writes. -/
def recordLayout (profile : UInt8) (image : RtcSessionImage) : List UInt8 :=
  frontLayout profile image ++ bigEndian 4 (crc32IsoHdlc (frontLayout profile image)).toUInt64

def rtcInvalid : Status := ⟨.integrityError, "RTC session invalid"⟩

def encodeRtcSession (profile : UInt8) (image : RtcSessionImage) : Except Status (List UInt8) := do
  refuse (!valid image) rtcInvalid
  .ok (recordLayout profile image)

/-! ## Reading -/

def bytesOf (n : Nat) (bytes : List UInt8) : Vector UInt8 n := Vector.ofFn fun i => bytes.getD i.val 0

def scopeOf (code : UInt8) : Option SecurityScope :=
  [SecurityScope.link, .endToEnd, .group, .groupLink].find? (·.code == code)

def readHead : ReadOp RecordHead := do
  let magic ← readU32
  let version ← readU16
  let size ← readU16
  let marker ← readU32
  pure ⟨magic, version, size, marker⟩

/-- The frame without its contexts, with their number, the profile tag and the padding. -/
def readFrame : ReadOp (RtcSessionImage × UInt8 × UInt8 × UInt16) := do
  let sourceBoot ← readU32
  let network ← readU64
  let localGeneration ← readU32
  let siteCommit ← readU32
  let gkEpoch ← readU32
  let rsFloor ← readU32
  let kidDigest ← readBytes 16
  let parentMac ← readBytes 6
  let parentBinding ← readU32
  let count ← readU8
  let profile ← readU8
  let padding ← readU16
  pure ({
    sourceBoot, network, localGeneration, siteCommit, gkEpoch, rsFloor
    kidDigest := bytesOf 16 kidDigest, parentMac := bytesOf 6 parentMac, parentBinding },
    count, profile, padding)

/-- A context with its scope byte and padding. -/
def readEntry : ReadOp (UInt8 × List UInt8 × SessionBankEntry) := do
  let code ← readU8
  let padding ← readBytes 7
  let peer ← readU64
  let txNext ← readU64
  let rxMax ← readU64
  let rxBitmap ← readU64
  let txKey ← readBytes 16
  let rxKey ← readBytes 16
  let txIv ← readBytes 12
  let rxIv ← readBytes 12
  let peerCertId ← readBytes 8
  let txCid ← readU32
  let rxCid ← readU32
  let peerGeneration ← readU32
  let peerRole ← readU32
  let createdGk ← readU32
  let remainingMs ← readU32
  let installSerial ← readU32
  let flags ← readU32
  pure (code, padding, {
    peer, txNext, rxMax, rxBitmap, txKey := bytesOf 16 txKey, rxKey := bytesOf 16 rxKey
    txIv := bytesOf 12 txIv, rxIv := bytesOf 12 rxIv, peerCertId := bytesOf 8 peerCertId, txCid, rxCid
    peerGeneration, peerRole, createdGk, remainingMs, installSerial, flags })

def readContext : ReadOp RtcSessionContext := do
  let (code, padding, entry) ← readEntry
  Op.check (refuse (padding.any (· != 0)) rtcInvalid)
  match scopeOf code with
  | none => Op.throw rtcInvalid
  | some scope => pure ⟨scope, entry⟩

def readContexts : Nat → ReadOp (List RtcSessionContext)
  | 0 => pure []
  | n + 1 => do
    let c ← readContext
    let cs ← readContexts n
    pure (c :: cs)

/-- The image in front of the unused bytes and the checksum. -/
def readImage (profile : UInt8) : ReadOp RtcSessionImage := do
  let head ← readHead
  Op.check (refuse (head != committedHead) rtcInvalid)
  let (frame, count, tag, padding) ← readFrame
  Op.check (refuse (tag != profile || padding != 0 || count == 0 || count > 2) rtcInvalid)
  let contexts ← readContexts count.toNat
  pure { frame with contexts }

/-- The checks of `decode_rtc_session` that do not depend on the wake. All failures are one status, so
their order does not show. -/
def readRecord (profile : UInt8) (raw : List UInt8) : Option RtcSessionImage :=
  match readImage profile raw with
  | (.error _, _) => none
  | (.ok image, rest) =>
    if raw.length == kRtcSessionRecordSize &&
        bigEndianValue (raw.drop kCrcOffset) == (crc32IsoHdlc (raw.take kCrcOffset)).toUInt64 &&
        (rest.take (rest.length - 4)).all (· == 0) && valid image then some image
    else none

/-- The context after a sleep, if it outlives it. -/
def ageContext (elapsed : UInt32) (c : RtcSessionContext) : Except Status RtcSessionContext := do
  refuse (elapsed ≥ c.entry.remainingMs) rtcInvalid
  .ok { c with entry := { c.entry with remainingMs := c.entry.remainingMs - elapsed } }

def decodeRtcSession (profile : UInt8) (raw : List UInt8) (wake : RtcWakeCheck) :
    Except Status RtcSessionImage := do
  refuse (!wake.deepSleep || !wake.sleepMarker || wake.trustedElapsedMs == 0) rtcInvalid
  match readRecord profile raw with
  | none => .error rtcInvalid
  | some image =>
    refuse (wake.nextBoot == 0 || image.sourceBoot.toUInt64 + 1 != wake.nextBoot.toUInt64 ||
      image.network != wake.network || image.localGeneration != wake.localGeneration ||
      image.siteCommit != wake.siteCommit || image.gkEpoch != wake.gkEpoch ||
      image.rsFloor != wake.rsFloor || image.kidDigest != wake.kidDigest) rtcInvalid
    let contexts ← image.contexts.mapM (ageContext wake.trustedElapsedMs)
    .ok { image with contexts }

/-! ## Round trip -/

theorem bytesOf_toList {n : Nat} (bytes : Vector UInt8 n) : bytesOf n bytes.toList = bytes := by
  ext i hi
  simp [bytesOf]

theorem scopeOf_code (scope : SecurityScope) : scopeOf scope.code = some scope := by
  cases scope <;> rfl

theorem readHead_eq_ok {source rest : List UInt8} {head : RecordHead} :
    readHead source = (.ok head, rest) ↔ source = head.layout ++ rest := by
  simp only [readHead, Op.bind_eq_ok, readU32_eq_ok, readU16_eq_ok, Op.pure_eq_ok, RecordHead.layout,
    List.append_assoc]
  constructor
  · rintro ⟨_, _, rfl, _, _, rfl, _, _, rfl, _, _, rfl, rfl, rfl⟩
    rfl
  · rintro rfl
    exact ⟨_, _, rfl, _, _, rfl, _, _, rfl, _, _, rfl, rfl, rfl⟩

theorem readFrame_layout (image : RtcSessionImage) (count profile : UInt8) (rest : List UInt8) :
    readFrame (frameLayout image count profile ++ rest) =
      (.ok ({ image with contexts := [] }, count, profile, 0), rest) := by
  simp only [readFrame, Op.bind_eq_ok, readU64_eq_ok, readU32_eq_ok, readU16_eq_ok, readU8_eq_ok,
    readBytes_eq_ok, Op.pure_eq_ok, frameLayout, List.append_assoc]
  refine ⟨_, _, rfl, _, _, rfl, _, _, rfl, _, _, rfl, _, _, rfl, _, _, rfl, _, _, ⟨rfl, by simp⟩, _, _,
    ⟨rfl, by simp⟩, _, _, rfl, _, _, rfl, _, _, rfl, 0, _, rfl, ?_, rfl⟩
  rw [bytesOf_toList, bytesOf_toList]

theorem readContext_layout (rest : List UInt8) : readContext (contextLayout c ++ rest) = (.ok c, rest) := by
  have hread : readEntry (contextLayout c ++ rest) =
      (.ok (c.scope.code, List.replicate 7 0, c.entry), rest) := by
    simp only [readEntry, Op.bind_eq_ok, readU64_eq_ok, readU32_eq_ok, readU8_eq_ok, readBytes_eq_ok,
      Op.pure_eq_ok, contextLayout, List.append_assoc]
    refine ⟨_, _, rfl, _, _, ⟨rfl, by simp⟩, _, _, rfl, _, _, rfl, _, _, rfl, _, _, rfl,
      _, _, ⟨rfl, by simp⟩, _, _, ⟨rfl, by simp⟩, _, _, ⟨rfl, by simp⟩, _, _, ⟨rfl, by simp⟩,
      _, _, ⟨rfl, by simp⟩, _, _, rfl, _, _, rfl, _, _, rfl, _, _, rfl, _, _, rfl, _, _, rfl,
      _, _, rfl, _, _, rfl, ?_, rfl⟩
    simp only [bytesOf_toList]
  refine Op.bind_eq_ok.mpr ⟨_, _, hread, Op.bind_eq_ok.mpr ⟨(), rest, rfl, ?_⟩⟩
  rw [scopeOf_code]
  rfl

theorem readContexts_layout (rest : List UInt8) :
    readContexts contexts.length (contextsLayout contexts ++ rest) = (.ok contexts, rest) := by
  induction contexts with
  | nil => rfl
  | cons c cs ih =>
    rw [contextsLayout, List.flatMap_cons, List.append_assoc]
    exact Op.bind_eq_ok.mpr ⟨c, _, readContext_layout c _, Op.bind_eq_ok.mpr ⟨cs, rest, ih, rfl⟩⟩

@[simp] theorem length_contextLayout : (contextLayout c).length = kContext := by
  simp [contextLayout, kContext]

theorem length_contextsLayout : (contextsLayout contexts).length = contexts.length * kContext := by
  simp [contextsLayout, List.length_flatMap]

theorem valid_contexts {image : RtcSessionImage} (h : valid image = true) :
    (∃ c, image.contexts = [c] ∧ c.scope = .link) ∨
      ∃ c d, image.contexts = [c, d] ∧ c.scope = .link ∧ d.scope = .endToEnd := by
  unfold valid at h
  rw [Bool.and_eq_true] at h
  have hscope : ∀ {scope c}, contextValid image.gkEpoch scope c = true → c.scope = scope := by
    intro scope c hc
    simp only [contextValid, Bool.and_eq_true, beq_iff_eq] at hc
    exact hc.1.1.1.1.1.1.1.1.1.1.1
  split at h
  · rename_i c hc
    exact .inl ⟨c, hc, hscope h.2⟩
  · rename_i c d hc
    obtain ⟨hlink, hend⟩ := Bool.and_eq_true_iff.mp h.2
    exact .inr ⟨c, d, hc, hscope hlink, hscope hend⟩
  · cases h.2

variable {profile : UInt8} {image : RtcSessionImage}

theorem valid_length (h : valid image = true) : image.contexts.length = 1 ∨ image.contexts.length = 2 := by
  rcases valid_contexts h with ⟨c, hc, -⟩ | ⟨c, d, hc, -, -⟩
  · exact .inl (by rw [hc]; rfl)
  · exact .inr (by rw [hc]; rfl)

theorem length_frontLayout (h : valid image = true) : (frontLayout profile image).length = kCrcOffset := by
  have hlength := valid_length h
  simp only [frontLayout, RecordHead.layout, frameLayout, unusedLayout, List.length_append,
    length_bigEndian, length_contextsLayout, List.length_replicate, Vector.length_toList, kCrcOffset,
    kRtcSessionRecordSize, kRtcSessionMaxContexts, kContext]
  omega

theorem length_recordLayout (h : valid image = true) :
    (recordLayout profile image).length = kRtcSessionRecordSize := by
  rw [recordLayout, List.length_append, length_frontLayout h, length_bigEndian]
  rfl

theorem readImage_layout (h : valid image = true) (crc : List UInt8) :
    readImage profile (frontLayout profile image ++ crc) =
      (.ok image, unusedLayout image.contexts ++ crc) := by
  have hcount : image.contexts.length.toUInt8.toNat = image.contexts.length ∧
      (profile != profile || (0 : UInt16) != 0 || image.contexts.length.toUInt8 == 0 ||
        decide (image.contexts.length.toUInt8 > 2)) = false := by
    rcases valid_length h with hl | hl <;> rw [hl] <;> simp
  simp only [frontLayout, List.append_assoc]
  refine Op.bind_eq_ok.mpr ⟨_, _, readHead_eq_ok.mpr rfl, ?_⟩
  refine Op.bind_eq_ok.mpr ⟨(), _, Op.check_eq_ok.mpr ⟨refuse_eq_ok.mpr (bne_self_eq_false _), rfl⟩, ?_⟩
  refine Op.bind_eq_ok.mpr ⟨_, _, readFrame_layout image _ profile _, ?_⟩
  refine Op.bind_eq_ok.mpr ⟨(), _, Op.check_eq_ok.mpr ⟨refuse_eq_ok.mpr hcount.2, rfl⟩, ?_⟩
  refine Op.bind_eq_ok.mpr ⟨image.contexts, _, ?_, rfl⟩
  rw [hcount.1]
  exact readContexts_layout image.contexts _

/-- **The record of a valid image reads back.** -/
theorem readRecord_encode (h : valid image = true) :
    readRecord profile (recordLayout profile image) = some image := by
  have hfront : (frontLayout profile image).length = kCrcOffset := length_frontLayout h
  have htake : (recordLayout profile image).take kCrcOffset = frontLayout profile image := by
    rw [recordLayout, ← hfront, List.take_left]
  have hdrop : (recordLayout profile image).drop kCrcOffset =
      bigEndian 4 (crc32IsoHdlc (frontLayout profile image)).toUInt64 := by
    rw [recordLayout, ← hfront, List.drop_left]
  unfold readRecord
  rw [htake, hdrop, length_recordLayout h, recordLayout, readImage_layout h]
  dsimp only
  rw [bigEndianValue_bigEndian (by decide) (crc32IsoHdlc _).toNat_lt, if_pos]
  rw [Bool.and_eq_true, Bool.and_eq_true, Bool.and_eq_true]
  refine ⟨⟨⟨rfl, beq_self_eq_true _⟩, ?_⟩, h⟩
  rw [List.length_append, length_bigEndian, Nat.add_sub_cancel, List.take_left]
  simp [unusedLayout]

/-! ## Writing -/

/-- The byte stores of `invalidate`: the whole record is cleared, from its start. -/
def clearStores : List (Nat × UInt8) := (List.range kRtcSessionRecordSize).map fun i => (i, 0)

/-- The stores that copy `count` bytes of an image from `start` on. -/
def copyStores (image : List UInt8) (start count : Nat) : List (Nat × UInt8) :=
  (List.range' start count).map fun i => (i, image.getD i 0)

/-- The byte stores of `write`: the record is cleared, and the commit word is copied last. -/
def writeStores (image : List UInt8) : List (Nat × UInt8) :=
  clearStores ++ (copyStores image 0 8 ++ (copyStores image 12 (kRtcSessionRecordSize - 12) ++
    copyStores image 8 4))

variable {raw bytes : List UInt8}

/-- A record starts with the magic and has the commit word. -/
theorem readRecord_some (h : readRecord profile raw = some image) :
    raw[0]? = some 0x52 ∧ raw[11]? = some 0x31 ∧ valid image = true := by
  unfold readRecord at h
  split at h
  · cases h
  · rename_i image' rest hread
    split at h
    · rename_i hchecks
      cases h
      obtain ⟨head, s₁, hhead, hread⟩ := Op.bind_eq_ok.mp hread
      obtain ⟨_, _, hcheck, -⟩ := Op.bind_eq_ok.mp hread
      obtain ⟨hrefuse, -⟩ := Op.check_eq_ok.mp hcheck
      rw [refuse_eq_ok, bne_eq_false_iff_eq] at hrefuse
      rw [readHead_eq_ok.mp hhead, hrefuse]
      exact ⟨rfl, rfl, (Bool.and_eq_true_iff.mp hchecks).2⟩
    · cases h

theorem mem_copyStores {start count : Nat} {store : Nat × UInt8} :
    store ∈ copyStores bytes start count ↔
      (start ≤ store.1 ∧ store.1 < start + count) ∧ store.2 = bytes.getD store.1 0 := by
  unfold copyStores
  rw [List.mem_map]
  constructor
  · rintro ⟨i, hi, rfl⟩
    rw [List.mem_range'_1] at hi
    exact ⟨hi, rfl⟩
  · rintro ⟨hi, hv⟩
    exact ⟨store.1, List.mem_range'_1.mpr hi, by rw [← hv]⟩

theorem mem_clearStores {store : Nat × UInt8} :
    store ∈ clearStores ↔ store.1 < kRtcSessionRecordSize ∧ store.2 = 0 := by
  unfold clearStores
  rw [List.mem_map]
  constructor
  · rintro ⟨i, hi, rfl⟩
    exact ⟨List.mem_range.mp hi, rfl⟩
  · rintro ⟨hi, hv⟩
    exact ⟨store.1, List.mem_range.mpr hi, by rw [← hv]⟩

theorem length_clearStores : clearStores.length = kRtcSessionRecordSize := by
  rw [clearStores, List.length_map, List.length_range]

theorem readRecord_cleared (hlength : raw.length = kRtcSessionRecordSize) {n : Nat} (hn : 0 < n) :
    readRecord profile (applyStores raw (clearStores.take n)) = none := by
  have hfirst : (applyStores raw (clearStores.take n))[0]? = some 0 := by
    refine getElem?_applyStores_eq (by rw [hlength]; decide) ⟨(0, 0), ?_, rfl⟩ fun store hs _ => ?_
    · refine List.mem_take_iff_getElem.mpr ⟨0, ?_, by simp [clearStores]⟩
      rw [length_clearStores]
      exact Nat.lt_min.mpr ⟨hn, by decide⟩
    · exact (mem_clearStores.mp (List.mem_of_mem_take hs)).2
  cases hread : readRecord profile (applyStores raw (clearStores.take n)) with
  | none => rfl
  | some image =>
    have := (readRecord_some hread).1
    rw [hfirst] at this
    cases this

theorem applyStores_writeStores (hlength : raw.length = kRtcSessionRecordSize)
    (hbytes : bytes.length = kRtcSessionRecordSize) : applyStores raw (writeStores bytes) = bytes := by
  rw [writeStores, applyStores_append]
  have hget : ∀ store : Nat × UInt8, store.1 < kRtcSessionRecordSize →
      store.2 = bytes.getD store.1 0 → bytes[store.1]? = some store.2 := by
    intro store hi hv
    rw [hv, List.getD_eq_getElem?_getD, List.getElem?_eq_getElem (hbytes.symm ▸ hi), Option.getD_some]
  refine applyStores_copy (by rw [length_applyStores, hlength, hbytes]) (fun store hs => ?_) fun i hi => ?_
  · simp only [List.mem_append, mem_copyStores] at hs
    rcases hs with ⟨hi, hv⟩ | ⟨hi, hv⟩ | ⟨hi, hv⟩
    · exact hget store (Nat.lt_of_lt_of_le hi.2 (by decide)) hv
    · exact hget store (Nat.lt_of_lt_of_le hi.2 (by decide)) hv
    · exact hget store (Nat.lt_of_lt_of_le hi.2 (by decide)) hv
  · refine ⟨(i, bytes.getD i 0), ?_, rfl⟩
    rw [hbytes] at hi
    simp only [List.mem_append, mem_copyStores, and_true]
    have : kRtcSessionRecordSize = 346 := rfl
    omega

/-- The last store of a write is the last byte of the commit word. -/
theorem writeStores_eq (bytes : List UInt8) :
    writeStores bytes = (clearStores ++ (copyStores bytes 0 8 ++
      (copyStores bytes 12 (kRtcSessionRecordSize - 12) ++ copyStores bytes 8 3))) ++
        [(11, bytes.getD 11 0)] := by
  simp only [writeStores, List.append_assoc]
  rfl

/-- **A write that was cut off** after some of its byte stores. -/
theorem readRecord_torn (hlength : raw.length = kRtcSessionRecordSize)
    (hbytes : bytes.length = kRtcSessionRecordSize) (n : Nat) :
    applyStores raw ((writeStores bytes).take n) = raw ∨
      applyStores raw ((writeStores bytes).take n) = bytes ∨
      readRecord profile (applyStores raw ((writeStores bytes).take n)) = none := by
  by_cases hzero : n = 0
  · exact .inl (by rw [hzero]; rfl)
  by_cases hall : (writeStores bytes).length ≤ n
  · rw [List.take_of_length_le hall]
    exact .inr (.inl (applyStores_writeStores hlength hbytes))
  refine .inr (.inr ?_)
  by_cases hclear : n ≤ clearStores.length
  · rw [writeStores, List.take_append_of_le_length hclear]
    exact readRecord_cleared hlength (Nat.pos_of_ne_zero hzero)
  -- the commit word was cleared, and its last byte is not written yet
  rw [writeStores_eq, List.length_append, List.length_singleton] at hall
  rw [writeStores_eq, List.take_append_of_le_length (by omega)]
  have hmark : ∀ stores : List (Nat × UInt8), stores = clearStores ++ (copyStores bytes 0 8 ++
      (copyStores bytes 12 (kRtcSessionRecordSize - 12) ++ copyStores bytes 8 3)) →
      clearStores.length < n → (applyStores raw (stores.take n))[11]? = some 0 := by
    rintro stores rfl hlt
    refine getElem?_applyStores_eq (by rw [hlength]; decide) ⟨(11, 0), ?_, rfl⟩ fun store hs hi => ?_
    · rw [List.take_append, List.take_of_length_le hlt.le]
      exact List.mem_append_left _ (mem_clearStores.mpr ⟨(by decide : 11 < kRtcSessionRecordSize), rfl⟩)
    · have hs := List.mem_of_mem_take hs
      simp only [List.mem_append, mem_copyStores, mem_clearStores, hi] at hs
      rcases hs with ⟨-, hv⟩ | ⟨hi, -⟩ | ⟨hi, -⟩ | ⟨hi, -⟩
      · exact hv
      · omega
      · omega
      · omega
  cases hread : readRecord profile (applyStores raw (List.take n _)) with
  | none => rfl
  | some image =>
    have := (readRecord_some hread).2.1
    rw [hmark _ rfl (by omega)] at this
    cases this

end RouteLoom.Rtc
