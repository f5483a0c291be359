import RouteLoom.Object.Calls

/-!
# Object transfers end to end

* `WorldInv` : every endpoint and every frame in the network is sound
* `objects_exact_and_once` : in every run each boot of a receiver is handed an object at most once, with
  exactly the bytes that were sent; that a restarted receiver is not handed it again and that a report of
  delivery is true holds exactly if contexts end with the boot that installed them
* `delivery_reported_for_former_boot` : with a context that outlives a restart, the acknowledgement of an
  object of the former boot completes an object with the same id
-/

namespace RouteLoom.Object

open Lib AppObject Function List

variable {r n : Nat} {keep : Bool} {w : World r n} {notes base : List ObjectNote}

/-! ## The invariant -/

structure WorldInv (keep : Bool) (w : World r n) (notes : List ObjectNote) : Prop where
  unique : ∀ l ∈ w.links, ∀ l' ∈ w.links, l.node = l'.node → l.peer = l'.peer → l.tx = l'.tx → l = l'
  paired : ∀ l ∈ w.links, ∀ l' ∈ w.links, l.node = l'.peer → l.peer = l'.node → l.tx = l'.rx →
    l.rx = l'.tx
  context : ∀ x y c, w.contexts x y = some c → ∃ l ∈ w.links, l.node = x ∧ l.peer = y ∧
    l.tx = c.tx ∧ l.rx = c.rx ∧ (keep = false → l.boot = (w.nodes x).config.messageSession)
  node : ∀ x, (w.nodes x).config.node = x
  history : Truthful keep notes
  frames : ∀ frame ∈ w.frames, FrameSound keep w.links notes frame
  ids : ∀ x, Numbered (w.nodes x).config (w.nodes x).nextId notes
  tx : ∀ x, TxSide keep w.links notes (w.nodes x).config (w.nodes x).tx (w.nodes x).result
  rx : ∀ x, RxSide keep w.links notes (w.contexts x) (w.nodes x).config (w.nodes x).rx (w.nodes x).records
    (w.nodes x).floors
  boots : ∀ x boot info data, .received x boot info data ∈ notes →
    boot ≤ (w.nodes x).config.messageSession
  once : ∀ x boot, (receivedNames x (· == boot) notes).Nodup

theorem setContext_cases (w : World r n) (x y : NodeId) (c : Option Context) (x' y' : NodeId) :
    x' = x ∧ y' = y ∧ (w.setContext x y c).contexts x' y' = c ∨
      (w.setContext x y c).contexts x' y' = w.contexts x' y' := by
  dsimp only [World.setContext]
  by_cases hx : x' = x
  · subst hx
    rw [update_self]
    by_cases hy : y' = y
    · subst hy
      exact .inl ⟨rfl, rfl, update_self ..⟩
    · exact .inr (update_of_ne hy ..)
  · exact .inr (congrFun (update_of_ne hx ..) y')

/-! ## Calls -/

theorem WorldInv.setting (h : WorldInv keep w notes) (x : NodeId) (call : CallEnv) :
    Setting keep w.links (w.contexts x) (w.env x call) (w.nodes x).config where
  unique := h.unique
  paired := h.paired
  context peer c hc := by
    obtain ⟨l, hl, hnode, hlink⟩ := h.context x peer c hc
    exact ⟨l, hl, hnode.trans (h.node x).symm, hlink⟩
  txEpoch peer epoch hepoch := by
    simp only [World.env, CallEnv.env] at hepoch
    split at hepoch
    · exact Option.map_eq_some_iff.mp hepoch
    · cases hepoch
  rxEpoch _ := rfl

theorem WorldInv.idle (h : WorldInv keep w notes) (x : NodeId) :
    Sound keep w.links (w.contexts x) (w.nodes x).config notes (w.idle x) := by
  have hknown : known (w.nodes x).config notes [] = notes := append_nil _
  refine ⟨rfl, ?_, ?_, fun frame hframe => ?_, ?_, ?_⟩ <;> dsimp only [World.idle] <;> try rw [hknown]
  · exact h.ids x
  · exact h.history
  · cases hframe
  · exact h.tx x
  · exact h.rx x

/-- `base` is a history with an object that `x` sends. -/
structure Adds (x : NodeId) (notes base : List ObjectNote) : Prop where
  subset : notes ⊆ base
  names : ∀ y boots, receivedNames y boots base = receivedNames y boots notes
  received : ∀ y boot info data, .received y boot info data ∈ base → .received y boot info data ∈ notes
  sent : ∀ y boot destination id data, y ≠ x → .sent y boot destination id data ∈ base →
    .sent y boot destination id data ∈ notes

theorem Adds.refl (x : NodeId) (notes : List ObjectNote) : Adds x notes notes :=
  ⟨fun _ h => h, fun _ _ => rfl, fun _ _ _ _ h => h, fun _ _ _ _ _ _ h => h⟩

theorem Adds.send (x : NodeId) (notes : List ObjectNote) (boot : UInt32) (destination : NodeId)
    (id : ObjectId) (data : List UInt8) : Adds x notes (notes ++ [.sent x boot destination id data]) where
  subset := subset_append_left ..
  names y boots := by
    rw [receivedNames_append]
    exact append_nil _
  received y _ _ _ h := by simpa using h
  sent y _ _ _ _ hy h := by simpa [hy] using h

theorem mem_noteOf {config : ObjectConfig} {out : List ObjectOutput} {note : ObjectNote}
    (h : note ∈ out.filterMap (noteOf config)) :
    (∃ info data, note = .received config.node config.messageSession info data) ∨
      ∃ result, note = .reported config.node config.messageSession result := by
  obtain ⟨output, -, houtput⟩ := mem_filterMap.mp h
  cases output with
  | frame => cases houtput
  | onObject info data => exact .inl ⟨info, data, (Option.some.inj houtput).symm⟩
  | onObjectResult result => exact .inr ⟨result, (Option.some.inj houtput).symm⟩

/-- A call concerns the received names of its own node and boot only. -/
theorem receivedNames_known {config : ObjectConfig} {out : List ObjectOutput} {y : NodeId}
    {boots : UInt32 → Bool} (hy : y ≠ config.node ∨ boots config.messageSession = false) :
    receivedNames y boots (known config base out) = receivedNames y boots base := by
  have hnone : receivedNames y boots (out.filterMap (noteOf config)) = [] := by
    refine filterMap_eq_nil_iff.mpr fun note hnote => ?_
    obtain ⟨info, data, rfl⟩ | ⟨result, rfl⟩ := mem_noteOf hnote
    · refine if_neg fun hown => ?_
      rcases hy with hy | hy
      · exact hy hown.1.symm
      · rw [hy] at hown
        cases hown.2
    · rfl
  rw [known, receivedNames_append, hnone, append_nil]

theorem filterMap_sublist {α β : Type*} {f g : α → Option β} (h : ∀ a b, f a = some b → g a = some b)
    (l : List α) : (l.filterMap f).Sublist (l.filterMap g) := by
  induction l with
  | nil => exact .slnil
  | cons a l ih =>
    cases hf : f a with
    | none =>
      rw [filterMap_cons_none hf]
      cases hg : g a with
      | none => rwa [filterMap_cons_none hg]
      | some c =>
        rw [filterMap_cons_some hg]
        exact ih.cons c
    | some b =>
      rw [filterMap_cons_some hf, filterMap_cons_some (h a b hf)]
      exact ih.cons_cons b

variable {x : NodeId} {o : AppObject r n}

theorem receivedNames_sublist {p q : UInt32 → Bool} (h : ∀ b, p b = true → q b = true)
    (notes : List ObjectNote) : (receivedNames x p notes).Sublist (receivedNames x q notes) := by
  refine filterMap_sublist (fun note name hname => ?_) notes
  cases note with
  | sent => cases hname
  | reported => cases hname
  | received y boot info data =>
    simp only [receivedName] at hname ⊢
    split at hname
    · next hown => rwa [if_pos ⟨hown.1, h _ hown.2⟩]
    · cases hname

section

variable (h : WorldInv keep w notes)
include h

theorem WorldInv.call (hadds : Adds x notes base)
    (ho : Sound keep w.links (w.contexts x) (w.nodes x).config base o) :
    WorldInv keep (w.update x o) (known (w.nodes x).config base o.out) := by
  have hx := h.node x
  have hsub : notes ⊆ known (w.nodes x).config base o.out := fun _ hnote =>
    mem_append_left _ (hadds.subset hnote)
  have hself : (w.update x o).nodes x = o := update_self ..
  have hother : ∀ y, y ≠ x → (w.update x o).nodes y = w.nodes y := fun y hy => update_of_ne hy ..
  have hconfig : ∀ y, ((w.update x o).nodes y).config = (w.nodes y).config := by
    intro y
    by_cases hy : y = x
    · subst hy
      rw [hself, ho.own]
    · rw [hother y hy]
  have hnames : ∀ y boots, y ≠ x → receivedNames y boots (known (w.nodes x).config base o.out) =
      receivedNames y boots notes := fun y boots hy =>
    (receivedNames_known (.inl (hx.symm ▸ hy))).trans (hadds.names y boots)
  refine ⟨h.unique, h.paired, fun y z c hc => ?_, fun y => ?_, ho.history, fun frame hframe => ?_,
    fun y => ?_, fun y => ?_, fun y => ?_, fun y boot info data hnote => ?_, fun y boot => ?_⟩
  · rw [hconfig]
    exact h.context y z c hc
  · rw [hconfig]
    exact h.node y
  · obtain hold | hnew := mem_append.mp hframe
    · exact (h.frames frame hold).mono (fun _ hl => hl) hsub
    · obtain ⟨output, houtput, hout⟩ := mem_filterMap.mp hnew
      cases output with
      | frame frame' =>
        cases hout
        exact ho.frames frame houtput
      | onObject => cases hout
      | onObjectResult => cases hout
  · by_cases hy : y = x
    · subst hy
      rw [hself, ho.own]
      exact ho.ids
    · rw [hother y hy]
      intro boot destination id data hsent
      refine h.ids y boot destination id data ?_
      rw [h.node] at hsent ⊢
      obtain hbase | hnew := mem_append.mp hsent
      · exact hadds.sent _ _ _ _ _ hy hbase
      · obtain ⟨_, _, hnote⟩ | ⟨_, hnote⟩ := mem_noteOf hnew <;> cases hnote
  · by_cases hy : y = x
    · subst hy
      rw [hself, ho.own]
      exact ho.tx
    · rw [hother y hy]
      exact (h.tx y).mono (fun _ hl => hl) hsub
  · by_cases hy : y = x
    · subst hy
      rw [hself, ho.own]
      exact ho.rx
    · rw [hother y hy]
      refine (h.rx y).mono (fun _ hl => hl) hsub (hnames _ _ ?_) fun _ _ _ hretired => hretired
      rw [h.node]
      exact hy
  · rw [hconfig]
    obtain hbase | hnew := mem_append.mp hnote
    · exact h.boots y boot info data (hadds.received _ _ _ _ hbase)
    · obtain ⟨_, _, hnote⟩ | ⟨_, hnote⟩ := mem_noteOf hnew <;> cases hnote
      rw [hx]
      exact UInt32.le_refl _
  · by_cases hy : y = x
    · subst hy
      by_cases hboot : (w.nodes y).config.messageSession = boot
      · -- the names of the current boot are among those that the endpoint answers for
        have honce := ho.rx.once
        unfold received at honce
        rw [h.node] at honce
        refine honce.sublist (receivedNames_sublist (fun b hb => ?_) _)
        rw [answered, hboot, hb, Bool.true_or]
      · rw [receivedNames_known (.inr (by simpa using hboot)), hadds.names]
        exact h.once y boot
    · rw [hnames y _ hy]
      exact h.once y boot

omit h in
theorem send_error {env : ObjectEnv} {o' : AppObject r n} {destination : NodeId} {data : List UInt8}
    {options : ObjectOptions} {now : MonotonicMs} {status : Status}
    (h : o.send env destination data options now = (.error status, o')) : o' = o := by
  unfold AppObject.send at h
  repeat' split at h
  all_goals first | exact (Prod.mk.inj h).2.symm | cases (Prod.mk.inj h).1

omit h in
theorem FrameSound.later {links : List Link} {frame : ObjectFrame} (h : FrameSound keep links notes frame)
    (remainingMs : UInt32) :
    FrameSound keep links notes { frame with remainingDeadlineMs := remainingMs } := by
  refine ⟨⟨h.start, h.chunk, fun v htype hv hstatus => ?_⟩, h.bound⟩
  obtain ⟨name, hname⟩ := h.ack v htype hv hstatus
  exact ⟨name, hname.received, hname.peer, hname.id, hname.context, hname.bound⟩

theorem WorldInv.call_step {accepted : List ObjectNote} (hadds : Adds x notes (notes ++ accepted))
    (ho : Sound keep w.links (w.contexts x) (w.nodes x).config (notes ++ accepted) o) :
    WorldInv keep (w.update x o) (notes ++ (accepted ++ o.out.filterMap (noteOf o.config))) := by
  rw [ho.own, ← append_assoc]
  exact h.call hadds ho

theorem WorldInv.quiet_step (ho : Sound keep w.links (w.contexts x) (w.nodes x).config notes o) :
    WorldInv keep (w.update x o) (notes ++ ([] ++ o.out.filterMap (noteOf o.config))) := by
  have hnil : notes = notes ++ [] := (append_nil notes).symm
  exact h.call_step (hnil ▸ Adds.refl x notes) (hnil ▸ ho)

theorem WorldInv.send (x : NodeId) (call : CallEnv) (destination : NodeId) (data : List UInt8)
    (options : ObjectOptions) (now : MonotonicMs) :
    WorldInv keep (ObjectEvent.next keep w (.send x call destination data options now))
      (notes ++ ObjectEvent.notes w (.send x call destination data options now)) := by
  dsimp only [ObjectEvent.next, ObjectEvent.notes, ObjectEvent.after, ObjectEvent.accepted]
  rcases hsend : (w.idle x).send (w.env x call) destination data options now with ⟨status | id, o⟩
  · cases send_error hsend
    exact h.quiet_step (h.idle x)
  · have ho := (h.idle x).send (h.setting x call) rfl hsend
    rw [h.node] at ho
    exact h.call_step (Adds.send ..) ho

/-! ## Contexts and restarts -/

theorem WorldInv.connect {y : NodeId} {c : Context} (hne : x ≠ y) (hfresh : ObjectEvent.Fresh w.links x y c) :
    WorldInv keep (ObjectEvent.next keep w (.connect x y c)) notes := by
  have hsub : w.links ⊆ w.links ++ [⟨x, y, c.tx, c.rx, (w.nodes x).config.messageSession⟩] :=
    subset_append_left ..
  refine ⟨fun l hl l' hl' => ?_, fun l hl l' hl' => ?_, fun x' y' c' hc' => ?_, h.node, h.history,
    fun frame hframe => (h.frames frame hframe).mono hsub fun _ hnote => hnote, h.ids,
    fun x' => (h.tx x').mono hsub fun _ hnote => hnote, fun x' => ?_, h.boots, h.once⟩
  · intro hnode hpeer htx
    simp only [ObjectEvent.next, mem_append, mem_singleton] at hl hl'
    obtain hl | rfl := hl
    · obtain hl' | rfl := hl'
      · exact h.unique l hl l' hl' hnode hpeer htx
      · exact absurd htx (hfresh.1 l hl hnode hpeer).1
    · obtain hl' | rfl := hl'
      · exact absurd htx.symm (hfresh.1 l' hl' hnode.symm hpeer.symm).1
      · rfl
  · intro hnode hpeer htx
    simp only [ObjectEvent.next, mem_append, mem_singleton] at hl hl'
    obtain hl | rfl := hl
    · obtain hl' | rfl := hl'
      · exact h.paired l hl l' hl' hnode hpeer htx
      · exact (hfresh.2 l hl hnode hpeer).mp htx
    · obtain hl' | rfl := hl'
      · exact ((hfresh.2 l' hl' hpeer.symm hnode.symm).mpr htx.symm).symm
      · exact absurd hnode hne
  · change (w.setContext x y (some c)).contexts x' y' = some c' at hc'
    obtain ⟨rfl, rfl, hnew⟩ | hsame := setContext_cases w x y (some c) x' y'
    · rw [hnew] at hc'
      cases hc'
      exact ⟨_, mem_append_right _ (mem_singleton_self _), rfl, rfl, rfl, rfl, fun _ => rfl⟩
    · obtain ⟨l, hl, hlink⟩ := h.context x' y' c' (hsame ▸ hc')
      exact ⟨l, hsub hl, hlink⟩
  · refine (h.rx x').mono hsub (fun _ hnote => hnote) rfl fun peer epoch hused hretired => ?_
    show ((w.setContext x y (some c)).contexts x' peer).map _ ≠ _
    obtain ⟨rfl, rfl, hnew⟩ | hsame := setContext_cases w x y (some c) x' peer
    · rw [hnew]
      obtain ⟨l, hl, hnode, hpeer, rfl⟩ := hused
      rw [h.node] at hnode
      exact fun heq => (hfresh.1 l hl hnode hpeer).2 (Option.some.inj heq).symm
    · rw [hsame]
      exact hretired

theorem WorldInv.retire (x y : NodeId) : WorldInv keep (w.setContext x y none) notes := by
  refine { h with context := fun x' y' c hc => ?_, rx := fun x' => ?_ }
  · obtain ⟨-, -, hnone⟩ | hsame := setContext_cases w x y none x' y'
    · rw [hnone] at hc
      cases hc
    · exact h.context x' y' c (hsame ▸ hc)
  · refine (h.rx x').mono (fun _ hl => hl) (fun _ hnote => hnote) rfl fun peer epoch _ hretired => ?_
    obtain ⟨-, -, hnone⟩ | hsame := setContext_cases w x y none x' peer
    · rw [hnone]
      exact fun heq => by cases heq
    · rw [hsame]
      exact hretired

/-- What a restarted endpoint answers for: nothing yet, or what its node has received before. -/
theorem received_restart {boot : UInt32} (hboot : (w.nodes x).config.messageSession < boot) :
    received keep { (w.nodes x).config with messageSession := boot } notes = [] ∨
      keep = false ∧ received keep { (w.nodes x).config with messageSession := boot } notes =
        received keep (w.nodes x).config notes := by
  cases keep with
  | false =>
    refine .inr ⟨rfl, ?_⟩
    have : ∀ boot, answered false boot = fun _ => true := by
      intro boot
      funext b
      exact Bool.or_true _
    rw [received, received, this, this]
  | true =>
    refine .inl (filterMap_eq_nil_iff.mpr fun note hnote => ?_)
    cases note with
    | sent => rfl
    | reported => rfl
    | received y b info data =>
      refine if_neg fun hown => ?_
      obtain ⟨rfl, hb⟩ := hown
      have hle := h.boots _ b info data hnote
      dsimp only at hle
      rw [h.node] at hle
      simp only [answered, Bool.not_true, Bool.or_false, beq_iff_eq] at hb
      subst hb
      exact UInt32.not_le.mpr hboot hle

theorem WorldInv.restart {boot : UInt32} (hboot : (w.nodes x).config.messageSession < boot) :
    WorldInv keep (w.restart keep x boot) notes := by
  have hself : (w.restart keep x boot).nodes x =
      .booted { (w.nodes x).config with messageSession := boot } := update_self ..
  have hother : ∀ y, y ≠ x → (w.restart keep x boot).nodes y = w.nodes y :=
    fun y hy => update_of_ne hy ..
  have hcontexts : ∀ y z, (keep = true ∨ y ≠ x) ∧ (w.restart keep x boot).contexts y z = w.contexts y z ∨
      (w.restart keep x boot).contexts y z = none := by
    intro y z
    dsimp only [World.restart]
    cases keep with
    | true => exact .inl ⟨.inl rfl, rfl⟩
    | false =>
      rw [if_neg Bool.false_ne_true]
      by_cases hy : y = x
      · subst hy
        exact .inr (congrFun (update_self y (fun _ => none) w.contexts) z)
      · exact .inl ⟨.inr hy, congrFun (update_of_ne hy (fun _ => none) w.contexts) z⟩
  refine ⟨h.unique, h.paired, fun y z c hc => ?_, fun y => ?_, h.history, h.frames, fun y => ?_, fun y => ?_,
    fun y => ?_, fun y b info data hnote => ?_, h.once⟩
  · obtain ⟨hkept, hsame⟩ | hnone := hcontexts y z
    · rw [hsame] at hc
      obtain ⟨l, hl, hnode, hpeer, htx, hrx, hlboot⟩ := h.context y z c hc
      refine ⟨l, hl, hnode, hpeer, htx, hrx, fun hkeep => ?_⟩
      rw [hother y (hkept.resolve_left (by simp [hkeep]))]
      exact hlboot hkeep
    · rw [hnone] at hc
      cases hc
  · by_cases hy : y = x
    · subst hy
      rw [hself]
      exact h.node y
    · rw [hother y hy]
      exact h.node y
  · by_cases hy : y = x
    · subst hy
      rw [hself]
      intro b destination id data hsent
      have hlt := UInt32.lt_of_le_of_lt (h.ids y b destination id data hsent).1 hboot
      exact ⟨UInt32.le_of_lt hlt, fun heq => absurd heq (UInt32.ne_of_lt hlt)⟩
    · rw [hother y hy]
      exact h.ids y
  · by_cases hy : y = x
    · subst hy
      rw [hself]
      exact .empty ..
    · rw [hother y hy]
      exact h.tx y
  · by_cases hy : y = x
    · subst hy
      rw [hself]
      have hcases := received_restart h hboot
      dsimp only [booted]
      refine .empty (fun name hname => ?_) ?_
      · obtain hnil | ⟨hkeep, hsame⟩ := hcases
        · rw [hnil] at hname
          cases hname
        · rw [hsame] at hname
          refine ⟨?_, ((h.rx y).past name hname).2⟩
          obtain ⟨hkept, -⟩ | hnone := hcontexts y name.peer
          · rw [hkeep] at hkept
            simp at hkept
          · rw [hnone]
            exact fun heq => by cases heq
      · obtain hnil | ⟨-, hsame⟩ := hcases
        · rw [hnil]
          exact nodup_nil
        · rw [hsame]
          exact (h.rx y).once
    · rw [hother y hy]
      refine (h.rx y).mono (fun _ hl => hl) (fun _ hnote => hnote) rfl fun peer epoch _ hretired => ?_
      obtain ⟨-, hsame⟩ | hnone := hcontexts y peer
      · rw [hsame]
        exact hretired
      · rw [hnone]
        exact fun heq => by cases heq
  · by_cases hy : y = x
    · subst hy
      rw [hself]
      exact UInt32.le_trans (h.boots y b info data hnote) (UInt32.le_of_lt hboot)
    · rw [hother y hy]
      exact h.boots y b info data hnote

end

/-! ## Every run -/

theorem worldInv_of_run (hrun : (objectMachine r n keep).Run w notes) : WorldInv keep w notes := by
  refine hrun.invariant (I := WorldInv keep) (fun w hinit => ?_) (fun w notes e h henabled => ?_)
  · obtain ⟨hnodes, hcontexts, hlinks, hframes⟩ := hinit
    refine ⟨by simp [hlinks], by simp [hlinks], fun x y c hc => ?_, fun x => ?_, ⟨by simp, by simp, by simp⟩,
      by simp [hframes], fun x => by simp [Numbered], fun x => ?_, fun x => ?_, by simp,
      fun x boot => nodup_nil⟩
    · rw [hcontexts] at hc
      cases hc
    · obtain ⟨network, boot, hx⟩ := hnodes x
      rw [hx]
      rfl
    · obtain ⟨network, boot, hx⟩ := hnodes x
      rw [hx]
      exact .empty ..
    · obtain ⟨network, boot, hx⟩ := hnodes x
      rw [hx]
      exact .empty (fun name hname => by cases hname) nodup_nil
  · cases e with
    | connect x y c => exact (append_nil notes).symm ▸ h.connect henabled.1 henabled.2
    | retire x y => exact (append_nil notes).symm ▸ h.retire x y
    | restart x boot => exact (append_nil notes).symm ▸ h.restart henabled
    | registerBuffer x buffer => exact h.quiet_step ((h.idle x).registerBuffer buffer)
    | send x call destination data options now => exact h.send x call destination data options now
    | cancel x id => exact h.quiet_step ((h.idle x).cancel id)
    | jobDone x id accepted unsupported now =>
      exact h.quiet_step ((h.idle x).onConfigJobDone id accepted unsupported now)
    | deliver x call frame remainingMs now =>
      refine h.quiet_step ((h.idle x).onConfigFrame (h.setting x call) henabled.2 ?_)
      have hknown : known (w.nodes x).config notes (w.idle x).out = notes := append_nil _
      rw [hknown]
      exact (h.frames frame henabled.1).later remainingMs
    | poll x call now => exact h.quiet_step ((h.idle x).poll (h.setting x call) now)

/-! ## A context that outlives a restart -/

/-- Two nodes before their first event. -/
def unconnected : World 1 1 where
  nodes x := .booted ⟨x, 1, 1⟩
  contexts _ _ := none
  links := []
  frames := []

def manifestFrame (boot : UInt32) (byte : UInt8) : ObjectFrame where
  type := .start
  origin := 1
  destination := 2
  session := boot
  endEpoch := 10
  originalLifetimeMs := 4000
  remainingDeadlineMs := 4000
  payload := (startOf 1 [byte] {}).layout kVersion

def chunkFrame (boot : UInt32) (byte : UInt8) : ObjectFrame :=
  { manifestFrame boot byte with type := .chunk, payload := (⟨1, 0, [byte]⟩ : Chunk).layout kVersion }

def ackFrame (ack : Ack) : ObjectFrame where
  type := .ack
  origin := 2
  destination := 1
  session := 1
  endEpoch := 20
  originalLifetimeMs := 4000
  remainingDeadlineMs := 4000
  payload := ack.layout kVersion

/-- An object of one byte is sent, and its manifest is acknowledged. -/
def sendByte (boot : UInt32) (byte : UInt8) (now : MonotonicMs) : List ObjectEvent := [
  .send 1 {} 2 [byte] {} now, .poll 1 {} now, .poll 1 {} now,
  .deliver 2 {} (manifestFrame boot byte) 4000 now, .poll 2 {} now,
  .deliver 1 {} (ackFrame ⟨1, .incomplete, 0, 0⟩) 4000 now, .poll 1 {} (now + 200), .poll 1 {} (now + 200)]

/-- The first object is received, the sender restarts before its acknowledgement arrives, and sends
another one. -/
def restartBeforeAck : List ObjectEvent :=
  [.connect 1 2 ⟨10, 20⟩, .connect 2 1 ⟨20, 10⟩, .registerBuffer 2 (List.replicate kMaxBytes 0)] ++
  sendByte 1 7 0 ++ [.deliver 2 {} (chunkFrame 1 7) 4000 200, .poll 2 {} 400, .restart 1 2] ++
  sendByte 2 8 1000 ++ [.deliver 1 {} (ackFrame ⟨1, .complete, 1, 1⟩) 4000 1300, .poll 1 {} 1300]

def restartNotes : List ObjectNote := [
  .sent 1 1 2 1 [7], .received 2 1 ⟨1, 1, 1, 10, 0, 0⟩ [7], .sent 1 2 2 1 [8],
  .reported 1 2 ⟨1, .delivered, none⟩]

theorem restartNotes_run : ∃ w, (objectMachine 1 1 true).Run w restartNotes := by
  have hinit : (objectMachine 1 1 true).Init unconnected :=
    ⟨fun _ => ⟨1, 1, rfl⟩, fun _ _ => rfl, rfl, rfl⟩
  have hrun := Machine.run_exec hinit restartBeforeAck (by decide +kernel)
  have hnotes : ((objectMachine 1 1 true).exec unconnected [] restartBeforeAck).2 = restartNotes := by
    decide +kernel
  exact ⟨_, hnotes ▸ hrun⟩

theorem restartNotes_not_reached : ¬ Reached restartNotes 1 2 1 := by
  rintro ⟨destination, data, name, -, hname, -, hboot, -⟩
  obtain ⟨boot, info, data, hnote, -, rfl⟩ := mem_receivedNames.mp hname
  simp only [restartNotes, mem_cons, ObjectNote.received.injEq, reduceCtorEq, false_or, or_false,
    not_mem_nil] at hnote
  obtain ⟨-, -, rfl, -⟩ := hnote
  exact absurd hboot (by decide)

/-- **Each boot of a receiver is handed an object at most once, with the bytes that were sent. That no
boot of a receiver is handed it again, and that each report of delivery is true, holds exactly if contexts
end with the boot that installed them.** -/
theorem objects_exact_and_once (keep : Bool) :
    (∀ r n (w : World r n) notes, (objectMachine r n keep).Run w notes →
      (∀ node boot, (receivedNames node (· == boot) notes).Nodup) ∧
        ∀ node boot info data, .received node boot info data ∈ notes →
          .sent info.source info.sourceBoot node info.id data ∈ notes) ∧
    ((∀ r n (w : World r n) notes, (objectMachine r n keep).Run w notes →
      (∀ node, (receivedNames node (fun _ => true) notes).Nodup) ∧
        ∀ node boot result, .reported node boot result ∈ notes → result.state = .delivered →
          Reached notes node boot result.id) ↔ keep = false) := by
  refine ⟨fun r n w notes hrun => ?_, fun hall => ?_, ?_⟩
  · have h := worldInv_of_run hrun
    exact ⟨h.once, h.history.exact⟩
  · by_contra hkeep
    rw [Bool.not_eq_false] at hkeep
    subst hkeep
    obtain ⟨w, hrun⟩ := restartNotes_run
    exact restartNotes_not_reached ((hall 1 1 w _ hrun).2 1 2 ⟨1, .delivered, none⟩ (by decide) rfl)
  · rintro rfl r n w notes hrun
    have h := worldInv_of_run hrun
    refine ⟨fun node => ?_, h.history.reports rfl⟩
    have honce := (h.rx node).once
    unfold received at honce
    rw [h.node] at honce
    refine honce.sublist (receivedNames_sublist (fun b _ => ?_) _)
    exact Bool.or_true _

/-- The second object was never received, and is reported as delivered. -/
theorem delivery_reported_for_former_boot :
    ∃ w notes, (objectMachine 1 1 true).Run w notes ∧
      ObjectNote.sent 1 2 2 1 [8] ∈ notes ∧ .reported 1 2 ⟨1, .delivered, none⟩ ∈ notes ∧
        ¬ Reached notes 1 2 1 := by
  obtain ⟨w, hrun⟩ := restartNotes_run
  exact ⟨w, _, hrun, by decide, by decide, restartNotes_not_reached⟩

end RouteLoom.Object
