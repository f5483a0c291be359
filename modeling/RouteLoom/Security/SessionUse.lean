import RouteLoom.Security.SessionRuns

/-!
# Keys and their images

A key is followed from its installation on: through a rekey that demotes it to the overlap table,
and through an export and a later restoration, which continues the installation. The serials of the
bank do not survive a restoration, so the system around the bank notes which installation each
serial belongs to.

An image is an exported context. It is stale once its key was used again, since the image does not
know of that use; the caller does not restore a stale image. Which uses count is a parameter.

* `SessionBank.System`, `SessionBank.sessionSystem` : a bank, its installations and images, and
  their runs
* `SessionBank.Follows`, `SessionBank.follows_next` : every step is of one of a few kinds
-/

namespace RouteLoom.SessionBank

open Lib List

variable {L E : Nat}

/-! ## The system -/

/-- An exported context and the installation it came from. -/
structure Image where
  origin : Nat
  entry : SessionBankEntry

/-- The installations are numbered in their order; `origins` maps the serials of live contexts to
them. -/
structure System (L E : Nat) where
  bank : SessionBank L E := {}
  installs : List ContextKeys := []
  origins : UInt32 → Nat := fun _ => 0
  images : List Image := []

/-- A seal that spent a reservation; `done` says that the port did not fail. -/
structure Sealing where
  origin : Nat
  txKey : SessionKey
  txIv : SessionIv
  counter : UInt64
  done : Bool
  deriving DecidableEq

/-- An accepted frame. -/
structure Opening where
  origin : Nat
  rxKey : SessionKey
  counter : UInt64
  deriving DecidableEq

inductive Use
  | issued (origin : Nat) (counter : UInt64)
  | sealed (s : Sealing)
  | opened (o : Opening)
  deriving DecidableEq

def Use.origin : Use → Nat
  | .issued origin _ => origin
  | .sealed s => s.origin
  | .opened o => o.origin

def Use.sealing : Use → Option Sealing
  | .sealed s => some s
  | _ => none

def Use.opening : Use → Option Opening
  | .opened o => some o
  | _ => none

/-- A call, or the restoration of the `k`-th image. -/
inductive Step
  | call (e : Event)
  | restore (scope : SecurityScope) (peer : NodeId) (k : Nat)

def System.originAt (st : System L E) (holder : RxHolder L E) : Nat :=
  ((st.bank.identityAt holder).map fun x => st.origins x.serial).getD 0

/-- The uses of keys in a call. -/
def uses (st : System L E) (e : Event) : List Use :=
  match e with
  | .nextCounter context =>
    match (SessionBank.nextCounter context st.bank).1,
        st.bank.findCurrent context.scope context.receiver with
    | .ok counter, some (_, entry) => [.issued (st.origins entry.installSerial) counter]
    | _, _ => []
  | .sealFrame aead context counter aad plaintext ciphertextSize =>
    match st.bank.checkSeal context counter plaintext ciphertextSize with
    | .ok ((_, entry), nonce, plain) =>
      [.sealed
        { origin := st.origins entry.installSerial
          txKey := entry.txKey
          txIv := entry.txIv
          counter
          done := (aead.encrypt entry.txKey nonce aad plain).isSome }]
    | .error _ => []
  | .openFrame aead context counter aad ciphertext tag plaintextSize =>
    match (SessionBank.openFrame aead context counter aad ciphertext tag plaintextSize st.bank).1,
        st.bank.selectRx context.scope context.sender context.epoch with
    | .ok _, some (holder, rx) =>
      [.opened { origin := st.originAt holder, rxKey := rx.rxKey, counter }]
    | _, _ => []
  | _ => []

/-- The image a call exports. -/
def exports (st : System L E) (e : Event) : List Image :=
  let image (r : Except Status SessionBankEntry) : List Image :=
    match r with
    | .ok entry => [⟨st.origins entry.installSerial, entry⟩]
    | .error _ => []
  match e with
  | .exportEntry scope peer => image (SessionBank.exportEntry scope peer st.bank).1
  | .exportSleepEntry scope peer => image (SessionBank.exportSleepEntry scope peer st.bank).1
  | _ => []

/-- The keys a call installs. -/
def installs (st : System L E) (e : Event) : List ContextKeys :=
  let installed (keys : ContextKeys) (r : Except Status Unit) : List ContextKeys :=
    match r with
    | .ok _ => [keys]
    | .error _ => []
  match e with
  | .installVerified keys att => installed keys (SessionBank.installVerified keys att st.bank).1
  | .install keys => installed keys (SessionBank.install keys st.bank).1
  | _ => []

/-- The next serial belongs to installation `origin`. -/
def System.assign (st : System L E) (origin : Nat) : UInt32 → Nat :=
  Function.update st.origins (st.bank.installSerial + 1) origin

/-- One step. A use for which `stales` holds makes the images of its installation stale; they are
dropped. -/
def next (stales : Use → Bool) (st : System L E) : Step → System L E
  | .call e =>
    { bank := e.effect st.bank
      installs := st.installs ++ installs st e
      origins := if (installs st e).isEmpty then st.origins else st.assign st.installs.length
      images := (st.images.filter fun im =>
        !(uses st e).any fun u => stales u && u.origin == im.origin) ++ exports st e }
  | .restore scope peer k =>
    match st.images[k]? with
    | none => st
    | some im =>
      match SessionBank.restoreEntry scope peer im.entry st.bank with
      | (.ok _, bank) => { st with bank, origins := st.assign im.origin }
      | (.error _, bank) => { st with bank }

def out (st : System L E) : Step → List Use
  | .call e => uses st e
  | .restore _ _ _ => []

/-- Contexts are restored from exported images only. -/
def callable : Event → Bool
  | .restoreEntry _ _ _ => false
  | _ => true

/-- Runs of any calls, from a bank that was never configured. -/
def sessionSystem (L E : Nat) (stales : Use → Bool) : Machine (System L E) Step Use where
  Init st := st.bank = {} ∧ st.installs = [] ∧ st.images = []
  Enabled _ s := match s with
    | .call e => callable e = true
    | .restore _ _ _ => True
  next := next stales
  out := out

instance (stales : Use → Bool) (st : System L E) (s : Step) :
    Decidable ((sessionSystem L E stales).Enabled st s) :=
  match s with
  | .call e => inferInstanceAs (Decidable (callable e = true))
  | .restore _ _ _ => isTrue trivial

/-! ## What a step does -/

/-- Everything but the bank is kept, apart from images. -/
structure Kept (st st' : System L E) : Prop where
  installs : st'.installs = st.installs
  origins : st'.origins = st.origins

/-- The context was made from these keys. -/
structure MadeFrom (keys : ContextKeys) (entry : SessionBankEntry) : Prop where
  txKey : entry.txKey = keys.txKey
  txIv : entry.txIv = keys.txIv
  rxKey : entry.rxKey = keys.rxKey
  rxCid : entry.rxCid = keys.rxContextId

/-- The two are the same but for the time left, the serial and flags other than the reservation. -/
structure Copies (entry copy : SessionBankEntry) : Prop where
  txKey : copy.txKey = entry.txKey
  txIv : copy.txIv = entry.txIv
  txNext : copy.txNext = entry.txNext
  rxCid : copy.rxCid = entry.rxCid
  rx : entryRx copy = entryRx entry
  reserved : copy.flags &&& kFlagSealReserved = entry.flags &&& kFlagSealReserved

/-- The kinds of steps, with the uses each makes. -/
inductive Follows (stales : Use → Bool) (st st' : System L E) : List Use → Prop
  | quiet (kept : Kept st st') (images : st'.images = st.images) (bank : Quiet st.bank st'.bank) :
      Follows stales st st' []
  | blank (kept : Kept st st') (images : st'.images = st.images) (bank : Blank st'.bank) :
      Follows stales st st' []
  | exported (slot : Slot L E) (entry image : SessionBankEntry) (kept : Kept st st')
      (images : st'.images = st.images ++ [⟨st.origins entry.installSerial, image⟩])
      (bank : st'.bank = st.bank) (found : st.bank.current slot = some entry)
      (copies : Copies entry image) : Follows stales st st' []
  | installed (slot : Slot L E) (keys : ContextKeys) (entry : SessionBankEntry)
      (installs : st'.installs = st.installs ++ [keys])
      (origins : st'.origins = st.assign st.installs.length) (images : st'.images = st.images)
      (places : Places st.bank st'.bank slot entry) (made : MadeFrom keys entry)
      (unused : entry.txNext = 0) (free : entry.flags &&& kFlagSealReserved = 0) :
      Follows stales st st' []
  | restored (slot : Slot L E) (im : Image) (entry : SessionBankEntry)
      (installs : st'.installs = st.installs) (origins : st'.origins = st.assign im.origin)
      (images : st'.images = st.images) (mem : im ∈ st.images)
      (places : Places st.bank st'.bank slot entry) (copies : Copies im.entry entry)
      (budget : entry.txNext < kMaxUseCounter) (free : entry.flags &&& kFlagSealReserved = 0)
      (fresh : ∀ s e, st.bank.current s = some e → e.rxCid ≠ entry.rxCid) :
      Follows stales st st' []
  | drawn (slot : Slot L E) (entry : SessionBankEntry) (u : Use) (kept : Kept st st')
      (images : ∀ im ∈ st'.images, im ∈ st.images) (draws : Draws st.bank st'.bank slot entry)
      (use : u = .issued (st.origins entry.installSerial) entry.txNext) :
      Follows stales st st' [u]
  | spent (slot : Slot L E) (entry : SessionBankEntry) (s : Sealing) (kept : Kept st st')
      (images : ∀ im ∈ st'.images,
        im ∈ st.images ∧ (stales (.sealed s) = true → im.origin ≠ s.origin))
      (spends : Spends st.bank st'.bank slot entry)
      (origin : s.origin = st.origins entry.installSerial) (txKey : s.txKey = entry.txKey)
      (txIv : s.txIv = entry.txIv) (counter : s.counter = entry.txNext - 1) :
      Follows stales st st' [.sealed s]
  | accepted (holder : RxHolder L E) (rx : RxContext) (o : Opening) (kept : Kept st st')
      (images : ∀ im ∈ st'.images,
        im ∈ st.images ∧ (stales (.opened o) = true → im.origin ≠ o.origin))
      (accepts : Accepts st.bank st'.bank holder rx o.counter)
      (origin : o.origin = st.originAt holder) (rxKey : o.rxKey = rx.rxKey) :
      Follows stales st st' [.opened o]

variable {stales : Use → Bool} {st st' : System L E}

variable {e : Event}

section

variable (huses : uses st e = []) (hexports : exports st e = []) (hinstalls : installs st e = [])
include huses hexports hinstalls

/-- A call that uses, exports and installs nothing changes the bank only. -/
theorem next_plain : next stales st (.call e) = { st with bank := e.effect st.bank } := by
  simp [next, huses, hexports, hinstalls]

theorem follows_quiet (hq : Quiet st.bank (e.effect st.bank)) :
    Follows stales st (next stales st (.call e)) (uses st e) := by
  rw [next_plain huses hexports hinstalls, huses]
  exact .quiet ⟨rfl, rfl⟩ rfl hq

theorem follows_blank (hb : Blank (e.effect st.bank) ∨ e.effect st.bank = st.bank) :
    Follows stales st (next stales st (.call e)) (uses st e) := by
  rcases hb with hb | hb
  · rw [next_plain huses hexports hinstalls, huses]
    exact .blank ⟨rfl, rfl⟩ rfl hb
  · exact follows_quiet huses hexports hinstalls (by rw [hb]; exact Quiet.refl st.bank)

end

/-- An operation that succeeds with `Q` or leaves the bank alone. -/
theorem after_or_same {α : Type} {m : BankOp L E α} {bank : SessionBank L E}
    {Q : α → SessionBank L E → Prop} (hm : Op.wp m Q (fun _ b => b = bank) bank) :
    (∃ a, (m bank).1 = .ok a ∧ Q a (m bank).2) ∨ ∃ e, (m bank).1 = .error e ∧ (m bank).2 = bank := by
  unfold Op.wp at hm
  cases hx : m bank with
  | mk r b =>
    rw [hx] at hm
    cases r with
    | ok a => exact Or.inl ⟨a, rfl, hm⟩
    | error e => exact Or.inr ⟨e, rfl, hm⟩

theorem copies_of_image {scope : SecurityScope} {peer : NodeId} {image : SessionBankEntry}
    {bank : SessionBank L E} (h : ImageOf bank scope peer image) :
    ∃ slot entry, bank.current slot = some entry ∧ Copies entry image ∧
      image.installSerial = entry.installSerial := by
  obtain ⟨slot, entry, hfind, heq, hflags⟩ := h
  refine ⟨slot, entry, (findCurrent_some hfind).2.1, ?_, by rw [heq]⟩
  rw [heq]
  exact ⟨rfl, rfl, rfl, rfl, rfl, hflags⟩

theorem follows_export {m : BankOp L E SessionBankEntry} {scope : SecurityScope} {peer : NodeId}
    (hm : Op.wp m (fun image b => b = st.bank ∧ ImageOf st.bank scope peer image)
      (fun _ b => b = st.bank) st.bank) (heffect : e.effect st.bank = (m st.bank).2) (huses : uses st e = [])
    (hinstalls : installs st e = []) (hexports : exports st e = match (m st.bank).1 with
      | .ok entry => [⟨st.origins entry.installSerial, entry⟩]
      | .error _ => []) : Follows stales st (next stales st (.call e)) (uses st e) := by
  rcases after_or_same hm with ⟨image, hok, hsame, himage⟩ | ⟨err, herr, hsame⟩
  · rw [hok] at hexports
    obtain ⟨slot, entry, hfound, hcopies, hserial⟩ := copies_of_image himage
    rw [huses]
    refine .exported slot entry image ⟨?_, ?_⟩ ?_ (heffect.trans hsame) hfound hcopies
    · simp [next, hinstalls]
    · simp [next, hinstalls]
    · simp [next, huses, hexports, hserial]
  · rw [herr] at hexports
    exact follows_quiet huses hexports hinstalls (by rw [heffect, hsame]; exact Quiet.refl st.bank)

theorem freshEntry_flags (keys : ContextKeys) (att : InstallAttestation) :
    (freshEntry keys att).flags &&& kFlagSealReserved = 0 := by
  show (if att.devResume then kFlagDevResume else 0) &&& kFlagSealReserved = 0
  cases att.devResume
  · decide
  · decide

theorem follows_install {m : BankOp L E Unit} {keys : ContextKeys} {att : InstallAttestation}
    (hm : Op.wp m (fun _ b => ∃ slot remainingMs,
        (∀ old, st.bank.current slot = some old →
          st.bank.findCurrent keys.scope keys.peer = some (slot, old)) ∧
        Places st.bank b slot
          { freshEntry keys att with remainingMs, installSerial := st.bank.installSerial + 1 })
      (fun _ b => b = st.bank) st.bank) (heffect : e.effect st.bank = (m st.bank).2)
    (huses : uses st e = []) (hexports : exports st e = [])
    (hinstalls : installs st e = match (m st.bank).1 with
      | .ok _ => [keys]
      | .error _ => []) :
    Follows stales st (next stales st (.call e)) (uses st e) := by
  rcases after_or_same hm with ⟨_, hok, slot, remainingMs, _, hplaces⟩ | ⟨err, herr, hsame⟩
  · rw [hok] at hinstalls
    rw [← heffect] at hplaces
    rw [huses]
    refine .installed slot keys _ ?_ ?_ ?_ hplaces ⟨rfl, rfl, rfl, rfl⟩ rfl (freshEntry_flags keys att)
    · simp [next, hinstalls]
    · simp [next, hinstalls]
    · simp [next, huses, hexports]
  · rw [herr] at hinstalls
    exact follows_quiet huses hexports hinstalls (by rw [heffect, hsame]; exact Quiet.refl st.bank)

/-- A call with one use keeps the images that the use does not make stale. -/
theorem images_of_use {u : Use} (huses : uses st e = [u]) (hexports : exports st e = []) :
    ∀ im ∈ (next stales st (.call e)).images, im ∈ st.images ∧ (stales u = true → im.origin ≠ u.origin) := by
  intro im him
  simp only [next, huses, hexports, append_nil, mem_filter, any_cons, any_nil,
    Bool.or_false, Bool.not_eq_true', Bool.and_eq_false_iff, beq_eq_false_iff_ne] at him
  refine ⟨him.1, fun hstale heq => ?_⟩
  rcases him.2 with h | h
  · rw [hstale] at h
    cases h
  · exact h heq.symm

theorem kept_of_call (hinstalls : installs st e = []) : Kept st (next stales st (.call e)) := by
  constructor
  · simp [next, hinstalls]
  · simp [next, hinstalls]

theorem follows_nextCounter (context : SecurityContext) :
    Follows stales st (next stales st (.call (.nextCounter context))) (uses st (.nextCounter context)) := by
  have hwp := wp_nextCounter st.bank context
  unfold Op.wp at hwp
  cases hx : SessionBank.nextCounter context st.bank with
  | mk r b =>
    rw [hx] at hwp
    have heffect : (Event.nextCounter context).effect st.bank = b := congrArg Prod.snd hx
    cases r with
    | ok counter =>
      obtain ⟨slot, entry, hfind, hcounter, -, hdraws⟩ := hwp
      have huses : uses st (.nextCounter context) = [.issued (st.origins entry.installSerial) counter] := by
        simp only [uses, hx, hfind]
      rw [huses]
      refine .drawn slot entry _ (kept_of_call rfl)
        (fun im him => (images_of_use huses rfl im him).1) ?_ (by rw [hcounter])
      rw [← heffect] at hdraws
      exact hdraws
    | error err =>
      have huses : uses st (.nextCounter context) = [] := by simp only [uses, hx]
      exact follows_quiet huses rfl rfl (by rw [heffect]; exact hwp)

theorem follows_sealFrame (aead : AeadGcm) (context : SecurityContext) (counter : UInt64)
    (aad : List UInt8) (plaintext : Option (List UInt8)) (ciphertextSize : Option Nat) :
    Follows stales st (next stales st (.call (.sealFrame aead context counter aad plaintext ciphertextSize)))
      (uses st (.sealFrame aead context counter aad plaintext ciphertextSize)) := by
  refine Op.wp.after (P := fun _ b =>
      (Event.sealFrame aead context counter aad plaintext ciphertextSize).effect st.bank = b →
      Follows stales st
        (next stales st (.call (.sealFrame aead context counter aad plaintext ciphertextSize)))
        (uses st (.sealFrame aead context counter aad plaintext ciphertextSize)))
    (wp_sealFrame st.bank aead context counter aad plaintext ciphertextSize
      (fun err hcheck heffect => ?_) fun slot entry nonce plain b hcheck hspends heffect => ?_) rfl
  · have huses : uses st (.sealFrame aead context counter aad plaintext ciphertextSize) = [] := by
      simp only [uses, hcheck]
    exact follows_quiet huses rfl rfl (by rw [heffect]; exact Quiet.refl st.bank)
  · have huses : uses st (.sealFrame aead context counter aad plaintext ciphertextSize) =
        [.sealed ⟨st.origins entry.installSerial, entry.txKey, entry.txIv, counter,
          (aead.encrypt entry.txKey nonce aad plain).isSome⟩] := by
      simp only [uses, hcheck]
    rw [huses]
    rw [← heffect] at hspends
    exact .spent slot entry _ (kept_of_call rfl) (images_of_use huses rfl) hspends rfl rfl rfl
      (checkSeal_ok hcheck).2.1

theorem follows_openFrame (aead : AeadGcm) (context : SecurityContext) (counter : UInt64) (aad : List UInt8)
    (ciphertext : Option (List UInt8)) (tag : AeadTag) (plaintextSize : Option Nat) :
    Follows stales st
      (next stales st (.call (.openFrame aead context counter aad ciphertext tag plaintextSize)))
      (uses st (.openFrame aead context counter aad ciphertext tag plaintextSize)) := by
  rcases after_or_same (wp_openFrame st.bank aead context counter aad ciphertext tag plaintextSize)
    with ⟨plain, hok, holder, rx, hselect, haccepts⟩ | ⟨err, herr, hsame⟩
  · have huses : uses st (.openFrame aead context counter aad ciphertext tag plaintextSize) =
        [.opened ⟨st.originAt holder, rx.rxKey, counter⟩] := by
      simp only [uses, hok, hselect]
    rw [huses]
    exact .accepted holder rx _ (kept_of_call rfl) (images_of_use huses rfl) haccepts rfl rfl
  · have huses : uses st (.openFrame aead context counter aad ciphertext tag plaintextSize) = [] := by
      simp only [uses, herr]
    exact follows_quiet huses rfl rfl (by
      show Quiet st.bank
        (SessionBank.openFrame aead context counter aad ciphertext tag plaintextSize st.bank).2
      rw [hsame]
      exact Quiet.refl st.bank)

theorem follows_restore (scope : SecurityScope) (peer : NodeId) (k : Nat) :
    Follows stales st (next stales st (.restore scope peer k)) [] := by
  simp only [next]
  split
  · exact .quiet ⟨rfl, rfl⟩ rfl (Quiet.refl st.bank)
  · rename_i im him
    have hwp := wp_restoreEntry st.bank scope peer im.entry
    unfold Op.wp at hwp
    cases hx : SessionBank.restoreEntry scope peer im.entry st.bank with
    | mk r b =>
      rw [hx] at hwp
      cases r with
      | error err =>
        obtain rfl : b = st.bank := hwp
        exact .quiet ⟨rfl, rfl⟩ rfl (Quiet.refl st.bank)
      | ok _ =>
        obtain ⟨slot, remainingMs, hflags, hbudget, hfresh, hplaces⟩ := hwp
        refine .restored slot im _ rfl rfl rfl (mem_of_getElem? him) hplaces
          ⟨rfl, rfl, rfl, rfl, rfl, rfl⟩ hbudget ?_ hfresh
        show im.entry.flags &&& kFlagSealReserved = 0
        rw [hflags]
        decide

theorem follows_next (s : Step) (hs : (sessionSystem L E stales).Enabled st s) :
    Follows stales st (next stales st s) (out st s) := by
  cases s with
  | restore scope peer k => exact follows_restore scope peer k
  | call e =>
    cases e with
    | restoreEntry scope peer entry => cases hs
    | nextCounter context => exact follows_nextCounter context
    | sealFrame aead context counter aad plaintext ciphertextSize =>
      exact follows_sealFrame aead context counter aad plaintext ciphertextSize
    | openFrame aead context counter aad ciphertext tag plaintextSize =>
      exact follows_openFrame aead context counter aad ciphertext tag plaintextSize
    | exportEntry scope peer => exact follows_export (wp_exportEntry st.bank scope peer) rfl rfl rfl rfl
    | exportSleepEntry scope peer =>
      exact follows_export (wp_exportSleepEntry st.bank scope peer) rfl rfl rfl rfl
    | installVerified keys att =>
      exact follows_install (wp_installVerified st.bank keys att) rfl rfl rfl rfl
    | install keys => exact follows_install (wp_install st.bank keys) rfl rfl rfl rfl
    | configure view bound salt now =>
      exact follows_blank rfl rfl rfl (Op.wp.after (P := fun _ b => Blank b ∨ b = st.bank)
        ((wp_configure st.bank view bound salt now).mono (fun _ _ h => .inl h) fun _ _ h => .inr h))
    | resetMembership view salt now =>
      exact follows_blank rfl rfl rfl (Op.wp.after (P := fun _ b => Blank b ∨ b = st.bank)
        ((wp_resetMembership st.bank view salt now).mono (fun _ _ h => .inl h)
          fun _ _ h => .inr h))
    | clear => exact follows_blank rfl rfl rfl (.inl (blank_wipeAll st.bank))
    | tick now => exact follows_quiet rfl rfl rfl ((quietOp_tick now).effect st.bank)
    | setGkEpoch gkEpoch =>
      exact follows_quiet rfl rfl rfl ((quietOp_setGkEpoch gkEpoch).effect st.bank)
    | _ => exact follows_quiet rfl rfl rfl (rests_effect st.bank _ rfl).quiet

end RouteLoom.SessionBank
