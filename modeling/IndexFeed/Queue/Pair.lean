import IndexFeed.Queue.Store

/-!
# Queue pairs

The two queues between a driver and one worker.  The driver creates both or none; a worker
attaches to both.
-/

set_option autoImplicit false

namespace IndexFeed.Queue

/-- The two queues of a worker, seen from either side. -/
structure Pair where
  toWorker : Handle
  toDriver : Handle
  deriving DecidableEq, Repr, Inhabited

namespace Pair

/-- Creates both queues.  If the second cannot be created, the first is dropped again. -/
def create (s : Store) (o : Options) (kernel : Kernel := .roomy) :
    Except Error Pair × Store × List Event :=
  match o.queueName .toWorker with
  | .error e => (.error e, s, [])
  | .ok workerName =>
    match s.create workerName o.capacity kernel with
    | (.error e, s, events) => (.error e, s, events)
    | (.ok toWorker, s, e₁) =>
      let undo := fun (e : Error) (s : Store) (events : List Event) =>
        let (s, dropped) := s.drop toWorker
        ((.error e, s, events ++ dropped) : Except Error Pair × Store × List Event)
      match o.queueName .toDriver with
      | .error e => undo e s e₁
      | .ok driverName =>
        match s.create driverName o.capacity kernel with
        | (.error e, s, e₂) => undo e s (e₁ ++ e₂)
        | (.ok toDriver, s, e₂) =>
          (.ok ⟨toWorker, toDriver⟩, s,
            e₁ ++ e₂ ++ [.createdPair o.driverId o.workerId.toNat])

/-- Opens both queues. -/
def attach (s : Store) (o : Options) : Except Error Pair × List Event :=
  match o.queueName .toWorker with
  | .error e => (.error e, [])
  | .ok workerName =>
    match s.openNamed workerName with
    | (.error e, events) => (.error e, events)
    | (.ok toWorker, e₁) =>
      match o.queueName .toDriver with
      | .error e => (.error e, e₁)
      | .ok driverName =>
        match s.openNamed driverName with
        | (.error e, e₂) => (.error e, e₁ ++ e₂)
        | (.ok toDriver, e₂) =>
          (.ok ⟨toWorker, toDriver⟩, e₁ ++ e₂ ++ [.attachedPair o.driverId o.workerId.toNat])

/-- Drops both handles, the one to the worker first. -/
def drop (s : Store) (p : Pair) : Store × List Event :=
  let (s, e₁) := s.drop p.toWorker
  let (s, e₂) := s.drop p.toDriver
  (s, e₁ ++ e₂)

end Pair

end IndexFeed.Queue
