import RouteLoom.Lib.Machine
import RouteLoom.Object.Endpoint

/-!
# Object transfers between endpoints

Any number of endpoints exchange frames over a network that loses, repeats, delays and reorders them.
A frame is bound to the end-to-end context and to the boot of its sender. Contexts are installed at
each end on its own; the ids that the two ends choose belong together, and none is used twice.

When a node restarts, its endpoint starts over. Whether its contexts outlive the restart, as they do when
a node keeps them through a deep sleep, is the parameter `keep`.

* `ObjectNote` : what was sent, received and reported, by which boot of which node
* `objectMachine` : all calls, arrivals, context changes and restarts, in any order
-/

namespace RouteLoom.Object

open Lib

/-! ## Histories -/

/-- What names an object at its receiver. -/
structure ObjectName where
  peer : NodeId
  boot : UInt32
  epoch : UInt32
  id : ObjectId
  deriving DecidableEq, Repr

def Key.name (k : Key) : ObjectName := ⟨k.peer, k.boot, k.epoch, k.id⟩

def ObjectRxInfo.name (info : ObjectRxInfo) : ObjectName :=
  ⟨info.source, info.sourceBoot, info.endContext, info.id⟩

/-- What happened at a node in one of its boots. -/
inductive ObjectNote
  | sent (node : NodeId) (boot : UInt32) (destination : NodeId) (id : ObjectId) (data : List UInt8)
  | received (node : NodeId) (boot : UInt32) (info : ObjectRxInfo) (data : List UInt8)
  | reported (node : NodeId) (boot : UInt32) (result : ObjectResult)
  deriving DecidableEq, Repr

/-- The object that a note says was received by the node in one of these boots. -/
def receivedName (node : NodeId) (boots : UInt32 → Bool) : ObjectNote → Option ObjectName
  | .received node' boot info _ => if node' = node ∧ boots boot = true then some info.name else none
  | _ => none

def receivedNames (node : NodeId) (boots : UInt32 → Bool) (notes : List ObjectNote) :
    List ObjectName :=
  notes.filterMap (receivedName node boots)

def noteOf (config : ObjectConfig) : ObjectOutput → Option ObjectNote
  | .frame _ => none
  | .onObject info data => some (.received config.node config.messageSession info data)
  | .onObjectResult result => some (.reported config.node config.messageSession result)

def frameOf : ObjectOutput → Option ObjectFrame
  | .frame frame => some frame
  | _ => none

/-! ## The machine -/

/-- An end-to-end context as one end holds it. -/
structure Context where
  tx : UInt32
  rx : UInt32
  deriving DecidableEq, Repr

/-- A context that `node` installed for `peer`. -/
structure Link where
  node : NodeId
  peer : NodeId
  tx : UInt32
  rx : UInt32
  boot : UInt32
  deriving DecidableEq, Repr

structure World (r n : Nat) where
  nodes : NodeId → AppObject r n
  contexts : NodeId → NodeId → Option Context
  links : List Link
  frames : List ObjectFrame

/-- What is left to chance during a call. -/
structure CallEnv where
  txReady : NodeId → Bool := fun _ => true
  contextUsable : NodeId → Bool := fun _ => true
  sendTyped : ObjectFrame → Option MessageId := fun _ => some {}
  receiveReady : Bool := true
  receiveSlots : Nat := 2

def CallEnv.env (contexts : NodeId → Option Context) (c : CallEnv) : ObjectEnv where
  txEpoch peer := if c.txReady peer then (contexts peer).map Context.tx else none
  currentRxEpoch peer := (contexts peer).map Context.rx
  contextUsable := c.contextUsable
  sendTyped := c.sendTyped
  receiveReady := c.receiveReady
  receiveSlots := c.receiveSlots

inductive ObjectEvent
  | connect (node peer : NodeId) (context : Context)
  | retire (node peer : NodeId)
  | restart (node : NodeId) (boot : UInt32)
  | registerBuffer (node : NodeId) (buffer : List UInt8)
  | send (node : NodeId) (call : CallEnv) (destination : NodeId) (data : List UInt8)
      (options : ObjectOptions) (now : MonotonicMs)
  | cancel (node : NodeId) (id : ObjectId)
  | jobDone (node : NodeId) (id : MessageId) (accepted unsupported : Bool) (now : MonotonicMs)
  | deliver (node : NodeId) (call : CallEnv) (frame : ObjectFrame) (remainingMs : UInt32)
      (now : MonotonicMs)
  | poll (node : NodeId) (call : CallEnv) (now : MonotonicMs)

namespace World

variable {r n : Nat}

/-- The endpoint of a node between two calls. -/
def idle (node : NodeId) (w : World r n) : AppObject r n := { w.nodes node with out := [] }

def env (node : NodeId) (call : CallEnv) (w : World r n) : ObjectEnv := call.env (w.contexts node)

/-- What an endpoint has sent is on its way. -/
def update (node : NodeId) (o : AppObject r n) (w : World r n) : World r n :=
  { w with nodes := Function.update w.nodes node o, frames := w.frames ++ o.out.filterMap frameOf }

def setContext (node peer : NodeId) (context : Option Context) (w : World r n) : World r n :=
  { w with
    contexts := Function.update w.contexts node (Function.update (w.contexts node) peer context) }

/-- A node starts over, in a new boot, with its contexts if it keeps them. -/
def restart (keep : Bool) (node : NodeId) (boot : UInt32) (w : World r n) : World r n :=
  { w with
    nodes := Function.update w.nodes node
      (.booted { (w.nodes node).config with messageSession := boot })
    contexts := if keep then w.contexts else Function.update w.contexts node fun _ => none }

end World

namespace ObjectEvent

variable {r n : Nat}

/-- The endpoint after a call. -/
def after (w : World r n) : ObjectEvent → Option (NodeId × AppObject r n)
  | .registerBuffer node buffer => some (node, ((w.idle node).registerBuffer buffer).2)
  | .send node call destination data options now =>
    some (node, ((w.idle node).send (w.env node call) destination data options now).2)
  | .cancel node id => some (node, ((w.idle node).cancel id).2)
  | .jobDone node id accepted unsupported now =>
    some (node, (w.idle node).onConfigJobDone id accepted unsupported now)
  | .deliver node call frame remainingMs now =>
    some (node, (w.idle node).onConfigFrame (w.env node call)
      { frame with remainingDeadlineMs := remainingMs } now)
  | .poll node call now => some (node, (w.idle node).poll (w.env node call) now)
  | .connect _ _ _ | .retire _ _ | .restart _ _ => none

/-- An object that the endpoint accepted for sending. -/
def accepted (w : World r n) : ObjectEvent → List ObjectNote
  | .send node call destination data options now =>
    match ((w.idle node).send (w.env node call) destination data options now).1 with
    | .ok id => [.sent node (w.nodes node).config.messageSession destination id data]
    | .error _ => []
  | _ => []

def next (keep : Bool) (w : World r n) : ObjectEvent → World r n
  | .connect node peer context =>
    { w.setContext node peer (some context) with
      links := w.links ++ [⟨node, peer, context.tx, context.rx, (w.nodes node).config.messageSession⟩] }
  | .retire node peer => w.setContext node peer none
  | .restart node boot => w.restart keep node boot
  | e =>
    match e.after w with
    | none => w
    | some (node, o) => w.update node o

def notes (w : World r n) (e : ObjectEvent) : List ObjectNote :=
  e.accepted w ++
    match e.after w with
    | none => []
    | some (_, o) => o.out.filterMap (noteOf o.config)

/-- The ids of a new context are new, and belong together. -/
def Fresh (links : List Link) (node peer : NodeId) (context : Context) : Prop :=
  (∀ l ∈ links, l.node = node → l.peer = peer → l.tx ≠ context.tx ∧ l.rx ≠ context.rx) ∧
    ∀ l ∈ links, l.node = peer → l.peer = node → (l.tx = context.rx ↔ l.rx = context.tx)

def Enabled (w : World r n) : ObjectEvent → Prop
  | .connect node peer context => node ≠ peer ∧ Fresh w.links node peer context
  | .restart node boot => (w.nodes node).config.messageSession < boot
  | .deliver _ _ frame _ now => frame ∈ w.frames ∧ now.toNat + 150000 < 2 ^ 64
  | _ => True

instance (links : List Link) (node peer : NodeId) (context : Context) :
    Decidable (Fresh links node peer context) :=
  inferInstanceAs (Decidable (_ ∧ _))

instance decidableEnabled (w : World r n) : ∀ e : ObjectEvent, Decidable (e.Enabled w)
  | .connect node peer context =>
    inferInstanceAs (Decidable (node ≠ peer ∧ Fresh w.links node peer context))
  | .restart node boot => inferInstanceAs (Decidable ((w.nodes node).config.messageSession < boot))
  | .deliver _ _ frame _ now =>
    inferInstanceAs (Decidable (frame ∈ w.frames ∧ now.toNat + 150000 < 2 ^ 64))
  | .retire _ _ | .registerBuffer _ _ | .send _ _ _ _ _ _ | .cancel _ _ | .jobDone _ _ _ _ _
  | .poll _ _ _ => isTrue trivial

end ObjectEvent

/-- Endpoints with `r` receive slots and `n` floors. -/
def objectMachine (r n : Nat) (keep : Bool) : Machine (World r n) ObjectEvent ObjectNote where
  Init w := (∀ x, ∃ network boot, w.nodes x = .booted ⟨x, network, boot⟩) ∧
    (∀ x y, w.contexts x y = none) ∧ w.links = [] ∧ w.frames = []
  Enabled := ObjectEvent.Enabled
  next := ObjectEvent.next keep
  out := ObjectEvent.notes

instance (r n : Nat) (keep : Bool) (w : World r n) (e : ObjectEvent) :
    Decidable ((objectMachine r n keep).Enabled w e) :=
  ObjectEvent.decidableEnabled w e

end RouteLoom.Object
