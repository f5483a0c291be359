import RouteLoom.Routing.Emission
import RouteLoom.Wire.Bytes

/-!
# Broadcast route updates

The update a node broadcasts: its own record, then the gateways it reaches, each with the neighbor it
goes through so that a receiver can apply poison reverse to itself. Records are checked as a whole on
both sides.

* `broadcast_codec_exact` : what is accepted is exactly what is encoded, and what both say of a list
-/

namespace RouteLoom

open Lib RouteNode List

/-! ## The codec -/

def BroadcastRouteRecord.layout (record : BroadcastRouteRecord) : List UInt8 :=
  bigEndian 8 record.route.destination ++ bigEndian 4 record.route.generation.toUInt64 ++
    bigEndian 2 record.route.sequence.toUInt64 ++ bigEndian 2 record.route.metric.toUInt64 ++
    bigEndian 8 record.via

def encodeBroadcastRouteUpdate (records : List BroadcastRouteRecord) (sender : NodeId) :
    Except Status (List UInt8) := do
  refuse (!validBroadcastRecords records sender) ⟨.invalidArgument, "broadcast route records"⟩
  .ok ([1, 0, records.length.toUInt8, 0] ++ records.flatMap (·.layout))

def readBroadcastRecord : ReadOp BroadcastRouteRecord := do
  let destination ← readU64
  let generation ← readU32
  let sequence ← readU16
  let metric ← readU16
  let via ← readU64
  pure { route := { destination, generation, sequence, metric }, via }

def readBroadcastRecords : Nat → ReadOp (List BroadcastRouteRecord)
  | 0 => pure []
  | n + 1 => do
    let record ← readBroadcastRecord
    let rest ← readBroadcastRecords n
    pure (record :: rest)

/-- The records of an input, before they are handed to the caller. -/
def decodeBroadcastRecords (input : List UInt8) (sender : NodeId) :
    Except Status (List BroadcastRouteRecord) := do
  let count := (input.getD 2 0).toNat
  refuse (input.length < 28 || input.getD 0 0 != 1 || input.getD 1 0 != 0 || input.getD 3 0 != 0 ||
    count == 0 || count > kBroadcastRouteMaxRecords || input.length != 4 + 24 * count)
    ⟨.protocolError, "broadcast route length/head"⟩
  -- the four bytes of the head are read one by one and dropped
  let decoded ← ((do let _ ← readBytes 4; readBroadcastRecords count : ReadOp _) input).1
  refuse (!validBroadcastRecords decoded sender) ⟨.protocolError, "broadcast route records"⟩
  .ok decoded

/-- The status, and the caller's array and count afterwards. -/
structure BroadcastDecode where
  status : Except Status Unit
  records : List BroadcastRouteRecord
  count : Nat

/-- On success the whole array is assigned, unused entries with their defaults. -/
def decodeBroadcastRouteUpdate (input : List UInt8) (sender : NodeId)
    (records : List BroadcastRouteRecord) : BroadcastDecode :=
  match decodeBroadcastRecords input sender with
  | .error e => { status := .error e, records, count := 0 }
  | .ok decoded =>
    { status := .ok ()
      records := decoded ++ List.replicate (kBroadcastRouteMaxRecords - decoded.length) {}
      count := decoded.length }

/-! ## Both directions -/

variable {records : List BroadcastRouteRecord} {sender : NodeId} {input source rest : List UInt8}

theorem readBroadcastRecord_eq_ok {record : BroadcastRouteRecord} :
    readBroadcastRecord source = (.ok record, rest) ↔ source = record.layout ++ rest := by
  simp only [readBroadcastRecord, Op.bind_eq_ok, readU64_eq_ok, readU32_eq_ok, readU16_eq_ok,
    Op.pure_eq_ok, BroadcastRouteRecord.layout, append_assoc]
  constructor
  · rintro ⟨_, _, rfl, _, _, rfl, _, _, rfl, _, _, rfl, _, _, rfl, rfl, rfl⟩
    rfl
  · rintro rfl
    exact ⟨_, _, rfl, _, _, rfl, _, _, rfl, _, _, rfl, _, _, rfl, rfl, rfl⟩

theorem readBroadcastRecords_eq_ok {n : Nat} :
    readBroadcastRecords n source = (.ok records, rest) ↔
      source = records.flatMap (·.layout) ++ rest ∧ records.length = n := by
  induction n generalizing source records rest with
  | zero =>
    rw [readBroadcastRecords, Op.pure_eq_ok, length_eq_zero_iff]
    constructor
    · rintro ⟨rfl, rfl⟩
      exact ⟨rfl, rfl⟩
    · rintro ⟨rfl, rfl⟩
      exact ⟨rfl, rfl⟩
  | succ n ih =>
    simp only [readBroadcastRecords, Op.bind_eq_ok, readBroadcastRecord_eq_ok, ih, Op.pure_eq_ok]
    constructor
    · rintro ⟨record, _, rfl, tail, _, ⟨rfl, rfl⟩, rfl, rfl⟩
      exact ⟨(append_assoc _ _ _).symm, rfl⟩
    · rintro ⟨rfl, hlength⟩
      obtain ⟨record, tail, rfl⟩ := exists_cons_of_length_eq_add_one hlength
      exact ⟨record, _, append_assoc _ _ _, tail, _, ⟨rfl, Nat.succ.inj hlength⟩, rfl, rfl⟩

theorem length_layouts : (records.flatMap (·.layout)).length = 24 * records.length := by
  induction records with
  | nil => rfl
  | cons record records ih =>
    have hlayout : record.layout.length = 24 := by simp [BroadcastRouteRecord.layout]
    rw [flatMap_cons, length_append, ih, hlayout, length_cons]
    omega

theorem length_of_valid (h : validBroadcastRecords records sender = true) :
    1 ≤ records.length ∧ records.length ≤ 5 := by
  unfold validBroadcastRecords at h
  split at h
  · cases h
  · simp only [Bool.and_eq_true, decide_eq_true_eq] at h
    exact ⟨Nat.succ_pos _, h.1.1.1.1.1.1.1⟩

theorem head_ok_iff {a b c d : UInt8} {body : List UInt8} :
    (([a, b, c, d] ++ body).length < 28 || a != 1 || b != 0 || d != 0 || c.toNat == 0 ||
        c.toNat > kBroadcastRouteMaxRecords || ([a, b, c, d] ++ body).length != 4 + 24 * c.toNat) = false ↔
      a = 1 ∧ b = 0 ∧ d = 0 ∧ 1 ≤ c.toNat ∧ c.toNat ≤ 5 ∧ body.length = 24 * c.toNat := by
  simp only [Bool.or_eq_false_iff, decide_eq_false_iff_not, bne_eq_false_iff_eq, beq_eq_false_iff_ne,
    length_append, length_cons, length_nil, kBroadcastRouteMaxRecords]
  constructor
  · rintro ⟨⟨⟨⟨⟨⟨-, rfl⟩, rfl⟩, rfl⟩, hpos⟩, hle⟩, hlength⟩
    have hle := of_decide_eq_false hle
    exact ⟨rfl, rfl, rfl, by omega, by omega, by omega⟩
  · rintro ⟨rfl, rfl, rfl, hpos, hle, hlength⟩
    exact ⟨⟨⟨⟨⟨⟨by omega, rfl⟩, rfl⟩, rfl⟩, by omega⟩, decide_eq_false (by omega)⟩, by omega⟩

theorem decodeBroadcastRecords_eq_ok :
    decodeBroadcastRecords input sender = .ok records ↔
      encodeBroadcastRouteUpdate records sender = .ok input := by
  unfold decodeBroadcastRecords encodeBroadcastRouteUpdate
  dsimp only
  rw [refuse_bind_eq_ok, refuse_bind_eq_ok, Except.ok.injEq]
  constructor
  · rintro ⟨hhead, hread⟩
    obtain ⟨decoded, hdecoded, hvalid⟩ := bind_eq_ok.mp hread
    obtain ⟨hvalid, hrecords⟩ := refuse_bind_eq_ok.mp hvalid
    cases hrecords
    obtain ⟨rest, hrun⟩ : ∃ rest, (do let _ ← readBytes 4; readBroadcastRecords (input.getD 2 0).toNat :
        ReadOp _) input = (.ok records, rest) := ⟨_, Prod.ext hdecoded rfl⟩
    obtain ⟨head, body, hfour, hbody⟩ := Op.bind_eq_ok.mp hrun
    obtain ⟨rfl, hlength⟩ := readBytes_eq_ok.mp hfour
    obtain ⟨hlayout, hcount⟩ := readBroadcastRecords_eq_ok.mp hbody
    match head, hlength with
    | [a, b, c, d], _ =>
      obtain ⟨rfl, rfl, rfl, -, -, hsize⟩ := head_ok_iff.mp hhead
      change records.length = c.toNat at hcount
      refine ⟨hvalid, ?_⟩
      rw [hlayout, length_append, length_layouts] at hsize
      have hrest : rest = [] := length_eq_zero_iff.mp (by omega)
      rw [hlayout, hrest, append_nil, hcount]
      rw [show c.toNat.toUInt8 = c from UInt8.ofNat_toNat]
  · rintro ⟨hvalid, rfl⟩
    have hlength := length_of_valid (by rwa [Bool.not_eq_false'] at hvalid)
    have hcount : records.length.toUInt8.toNat = records.length := Nat.mod_eq_of_lt (by omega)
    have hread : (do let _ ← readBytes 4; readBroadcastRecords records.length : ReadOp _)
        ([1, 0, records.length.toUInt8, 0] ++ records.flatMap (·.layout)) = (.ok records, []) :=
      Op.bind_eq_ok.mpr ⟨_, _, readBytes_eq_ok.mpr ⟨rfl, rfl⟩,
        readBroadcastRecords_eq_ok.mpr ⟨(append_nil _).symm, rfl⟩⟩
    refine ⟨head_ok_iff.mpr ⟨rfl, rfl, rfl, by omega, by omega, by rw [length_layouts, hcount]⟩, ?_⟩
    show (((do let _ ← readBytes 4; readBroadcastRecords records.length.toUInt8.toNat : ReadOp _) _).1 >>= _) = _
    rw [hcount, hread]
    exact refuse_bind_eq_ok.mpr ⟨hvalid, rfl⟩

/-! ## What a valid list is -/

/-- The sender's own record first, no destination twice, and a via that a receiver can use. -/
structure WellFormed (sender : NodeId) (records : List BroadcastRouteRecord) : Prop where
  own : ∃ first, records.head? = some first ∧ first.route.destination = sender ∧ first.route.metric = 0
  distinct : (records.map (·.route.destination)).Nodup
  via : ∀ record ∈ records.tail, record.route.metric ≠ kInfiniteRouteMetric →
    record.via ≠ sender ∧ record.via ≠ record.route.destination

theorem wellFormed_of_valid (h : validBroadcastRecords records sender = true) :
    WellFormed sender records := by
  unfold validBroadcastRecords at h
  split at h
  · cases h
  · next first rest =>
    simp only [Bool.and_eq_true, beq_iff_eq, decide_eq_true_eq] at h
    obtain ⟨⟨⟨⟨⟨⟨-, hown⟩, hmetric⟩, -⟩, -⟩, hrest⟩, hdistinct⟩ := h
    refine ⟨⟨first, rfl, hown, hmetric⟩, hdistinct, fun record hrecord hfinite => ?_⟩
    have hvia := all_eq_true.mp hrest record hrecord
    rw [if_neg hfinite] at hvia
    simp only [Bool.and_eq_true, bne_iff_ne] at hvia
    exact ⟨hvia.2.1.2, hvia.2.2⟩

/-- **The codec is exact.** -/
theorem broadcast_codec_exact (sender : NodeId) (input : List UInt8) (array : List BroadcastRouteRecord) :
    let out := decodeBroadcastRouteUpdate input sender array
    (out.status = .ok () ↔ ∃ records, encodeBroadcastRouteUpdate records sender = .ok input) ∧
    (∀ records, encodeBroadcastRouteUpdate records sender = .ok input →
      out.records.take out.count = records ∧ WellFormed sender records) ∧
    (out.status ≠ .ok () → out.records = array ∧ out.count = 0) := by
  unfold decodeBroadcastRouteUpdate
  cases hdecode : decodeBroadcastRecords input sender with
  | error e =>
    have hnone : ∀ records, encodeBroadcastRouteUpdate records sender ≠ .ok input := fun records hrecords => by
      rw [decodeBroadcastRecords_eq_ok.mpr hrecords] at hdecode
      cases hdecode
    exact ⟨⟨fun h => (by cases h), fun ⟨records, h⟩ => absurd h (hnone records)⟩,
      fun records h => absurd h (hnone records), fun _ => ⟨rfl, rfl⟩⟩
  | ok decoded =>
    have hencode := decodeBroadcastRecords_eq_ok.mp hdecode
    refine ⟨⟨fun _ => ⟨decoded, hencode⟩, fun _ => rfl⟩, fun records h => ?_, fun h => absurd rfl h⟩
    rw [decodeBroadcastRecords_eq_ok.mpr h] at hdecode
    cases hdecode
    have hvalid := (refuse_bind_eq_ok.mp h).1
    rw [Bool.not_eq_false'] at hvalid
    exact ⟨take_left, wellFormed_of_valid hvalid⟩

end RouteLoom
