import TailscaleDart.Conc.Machine
import TailscaleDart.Fd.Release

/-!
# Fd.Shards — one descriptor from `adopt` on, among the reactor shards

A descriptor given to `adopt` is registered with a shard, or with another one when the first attempt seems to have met
a shard that was going away, and belongs to the shard from then on. The main isolate cannot see a shard end: it goes by
a reply that does not come in time, a wake that fails, and the exit notice. Here are all shards as that one descriptor
meets them: what is in their command queues for it and in their tables of states. What other transports do to a shard
(its limit, its end, a proxy they mark closed) is free.

The two halves of the transport are the ones of `Fd.Transport` and `Fd.Reactor`. A step is what one isolate does between
two points where another may run, or where its own event loop may run something else. `calls` is everything that was
done with the descriptor, by whichever isolate.
-/

namespace TailscaleDart.Fd

open Conc

/-! ## Shards -/

/-- A message on a shard's command port. -/
inductive Request where
  | register (id : Nat)
  | command (id : Nat) (command : Command)
  deriving DecidableEq, Repr

/-- An entry of the table of states. -/
structure Entry where
  id : Nat
  state : Reactor
  deriving DecidableEq, Repr

structure Shard where
  running : Bool := true
  /-- `_closed` of its proxy on the main isolate. -/
  proxyClosed : Bool := false
  commands : List Request := []
  states : List Entry := []
  deriving DecidableEq, Repr

namespace Shard

/-- What is sent to a port that is closed is gone. -/
def post (requests : List Request) (shard : Shard) : Shard :=
  if shard.running then { shard with commands := shard.commands ++ requests } else shard

/-- The table after a step of one state: a state that closed has left it, and what it sent is on its way. -/
def put (id : Nat) (state : Reactor) (shard : Shard) : Shard :=
  { shard with
    states := if state.closed then shard.states.filter (·.id ≠ id)
      else shard.states.map fun e => if e.id = id then { e with state := { state with outbox := [] } } else e }

end Shard

/-! ## The descriptor -/

inductive Stage where
  /-- `_registerWithReactor` awaits a proxy, in its first or second attempt. -/
  | seeking (attempt : Nat)
  /-- It awaits the reply to its request. -/
  | registering (attempt : Nat) (shard : Nat) (id : Nat)
  | failed
  | adopted (shard : Nat) (id : Nat)
  deriving DecidableEq, Repr

structure Descriptor where
  config : Config := {}
  /-- The reactor isolates, those to be spawned included. -/
  shards : Nat → Shard := fun _ => {}
  stage : Stage := .seeking 0
  nextTransportId : Nat := 0
  /-- Replies to register requests on their way. -/
  replies : List (Nat × Bool) := []
  transport : PosixFdTransport := {}
  /-- Events on their way to the transport's port; all attempts have the same one. -/
  events : List Event := []
  calls : List FdCall := []

namespace Descriptor

def setShard (i : Nat) (shard : Shard) (d : Descriptor) : Descriptor :=
  { d with shards := Function.update d.shards i shard }

def markClosed (i : Nat) (d : Descriptor) : Descriptor := d.setShard i { d.shards i with proxyClosed := true }

/-! ### Adoption -/

/-- The catch of `_registerWithReactor`: the descriptor is closed here. -/
def fail (d : Descriptor) : Descriptor := { d with stage := .failed, calls := d.calls ++ [.close] }

/-- An attempt failed in a way that may be tried again, once. -/
def retry (attempt : Nat) (d : Descriptor) : Descriptor :=
  if attempt = 0 then { d with stage := .seeking 1 } else d.fail

/-- `forTransport` gives a proxy and the request is sent to it. -/
def register (i : Nat) (result : SendResult) (d : Descriptor) : Option Descriptor :=
  match d.stage with
  | .seeking attempt =>
    let id := d.nextTransportId + 1
    (refusals (d.shards i).proxyClosed [result]).map fun proxyClosed =>
      let shard := if result = .stopped then d.shards i else (d.shards i).post [.register id]
      let d := { d.setShard i { shard with proxyClosed := proxyClosed } with nextTransportId := id }
      if result = .ok then { d with stage := .registering attempt i id } else d.retry attempt
  | _ => none

/-- `forTransport` throws: no shard could be started. -/
def spawnFails (d : Descriptor) : Option Descriptor :=
  match d.stage with
  | .seeking _ => some d.fail
  | _ => none

def timesOut (d : Descriptor) : Option Descriptor :=
  match d.stage with
  | .registering attempt i _ => some ((d.markClosed i).retry attempt)
  | _ => none

/-- A reply arrives; one to a request that was given up finds its port closed. A refusal is not tried again. -/
def reply (id : Nat) (ok : Bool) (d : Descriptor) : Option Descriptor :=
  if (id, ok) ∈ d.replies then
    let d := { d with replies := d.replies.erase (id, ok) }
    match d.stage with
    | .registering _ i awaited =>
      if id = awaited then some (if ok then { d with stage := .adopted i id } else d.fail) else some d
    | _ => some d
  else none

/-! ### The shards -/

/-- A state took a step: what it did with the descriptor, what it sent, and whether it is still there. -/
def stepped (i id : Nat) (state state' : Reactor) (d : Descriptor) : Descriptor :=
  { d.setShard i ((d.shards i).put id state') with
    events := d.events ++ state'.outbox
    calls := d.calls ++ state'.fdCalls.drop state.fdCalls.length }

/-- A step of the state registered under an id, if there is one. -/
def act (i id : Nat) (step : Reactor → Option Reactor) (d : Descriptor) : Option Descriptor :=
  match (d.shards i).states.find? (·.id = id) with
  | none => some d
  | some entry => (step entry.state).map fun state' => d.stepped i id entry.state state'

/-- The first of the queued commands is processed. `ok` is what becomes of a registration: the table may be full or the
poller refuse. -/
def process (i : Nat) (ok : Bool) (answers : List WriteAnswer) (updateOk shutdownOk : Bool) (d : Descriptor) :
    Option Descriptor :=
  match (d.shards i).commands with
  | [] => none
  | .register id :: rest =>
    let shard := { d.shards i with commands := rest }
    some { d.setShard i (if ok then { shard with states := shard.states ++ [⟨id, { config := d.config }⟩] } else shard)
      with replies := d.replies ++ [(id, ok)] }
  | .command id command :: rest =>
    act i id (·.process command answers updateOk shutdownOk) (d.setShard i { d.shards i with commands := rest })

/-- The reactor loop ends: every state is closed, and the port. -/
def stop (i : Nat) (error : Option String) (d : Descriptor) : Descriptor :=
  let states := (d.shards i).states
  { d.setShard i { d.shards i with running := false, commands := [], states := [] } with
    events := d.events ++ states.flatMap fun e => (e.state.closeReactorState error).outbox
    calls := d.calls ++ states.flatMap fun e => (e.state.closeReactorState error).fdCalls.drop e.state.fdCalls.length }

/-! ### The transport -/

/-- The transport moved on, with so many sends: what it posted goes to its shard. -/
def continued (i id : Nat) (results : List SendResult) (t : PosixFdTransport) (d : Descriptor) : Option Descriptor :=
  (refusals (d.shards i).proxyClosed results).map fun proxyClosed =>
    { d.setShard i { (d.shards i).post (t.mailbox.map (.command id)) with proxyClosed := proxyClosed } with
      transport := { t with mailbox := [] } }

def call (c : PosixFdTransport.Call) (d : Descriptor) : Option Descriptor :=
  match d.stage with
  | .adopted i id => d.continued i id c.results (c.run d.transport)
  | _ => none

/-- The sends while an event is handled. -/
def handling (r : PosixFdTransport.Reaction) (ack enable : SendResult) : List SendResult :=
  r.flatMap (·.results) ++ [ack, enable]

/-- The oldest event is handled. Before the transport is returned nobody listens to it, and it has no reactor to send
to; once the adoption failed its port is closed. -/
def deliver (r : PosixFdTransport.Reaction) (ack enable : SendResult) (d : Descriptor) : Option Descriptor :=
  match d.events with
  | [] => none
  | event :: rest =>
    let d := { d with events := rest }
    match d.stage with
    | .adopted i id => d.continued i id (handling r ack enable) (d.transport.handleReactorEvent event r ack enable)
    | .failed => some d
    | _ =>
      if r = [] then
        some { d with transport := { d.transport.handleReactorEvent event [] .stopped .stopped with mailbox := [] } }
      else none

/-! ### Runs -/

inductive Action where
  | register (i : Nat) (result : SendResult)
  | spawnFails
  | timesOut
  | reply (id : Nat) (ok : Bool)
  | call (c : PosixFdTransport.Call)
  | deliver (r : PosixFdTransport.Reaction) (ack enable : SendResult)
  | process (i : Nat) (ok : Bool) (answers : List WriteAnswer) (updateOk shutdownOk : Bool)
  /-- The poller reports a descriptor readable or hung up, or writable. -/
  | readable (i id : Nat) (answers : List ReadAnswer) (eofOnAgain updateOk : Bool)
  | writable (i id : Nat) (answers : List WriteAnswer) (updateOk shutdownOk : Bool)
  | stop (i : Nat) (error : Option String)
  /-- The exit notice of a shard that ended. -/
  | exited (i : Nat)
  /-- A request or a send of another transport marks the proxy closed. -/
  | markClosed (i : Nat)
  deriving DecidableEq, Repr

def step (d : Descriptor) : Action → Option Descriptor
  | .register i result => d.register i result
  | .spawnFails => d.spawnFails
  | .timesOut => d.timesOut
  | .reply id ok => d.reply id ok
  | .call c => d.call c
  | .deliver r ack enable => d.deliver r ack enable
  | .process i ok answers updateOk shutdownOk => d.process i ok answers updateOk shutdownOk
  | .readable i id answers eofOnAgain updateOk => d.act i id (·.readReactorState answers eofOnAgain updateOk)
  | .writable i id answers updateOk shutdownOk => d.act i id (·.flushReactorWrites answers updateOk shutdownOk)
  | .stop i error => if (d.shards i).running then some (d.stop i error) else none
  | .exited i => if (d.shards i).running then none else some (d.markClosed i)
  | .markClosed i => some (d.markClosed i)

/-- A descriptor that is given to `adopt`. -/
def given (config : Config) : Descriptor := { config := config, transport := .adopted config }

/-- The states of the runs whose steps all meet `ok` in the state before them. -/
abbrev Reachable (ok : Action → Descriptor → Prop) (config : Config) : Descriptor → Prop :=
  Machine.Reachable step ok (given config)

end Descriptor

end TailscaleDart.Fd
