import CodeAssist.Connection
import CodeAssist.Router.Step

namespace CodeAssist

open Text (Bytes)

/-- A connection, seen from the engine: what the peer has sent and the engine has not read, whether
the peer sends no more, whether the engine still reads, the requests that are not answered, and the
responses written so far. -/
structure Link where
  unread : Bytes := []
  peerDone : Bool := false
  reads : Bool := true
  awaited : List Nat := []
  written : List Response := []
deriving Repr

namespace Link

def output (l : Link) : Bytes := l.written.flatMap fun r => Frame.encode r.encode

def isClosed (l : Link) : Bool := !l.reads && l.awaited.isEmpty

end Link

/-- A router and the connections its requests come from, and whether the process has ended. -/
structure Engine where
  router : Router
  links : List (Nat × Link) := []
  listens : Bool := true
  exited : Bool := false

namespace Engine

/-- What can happen to an engine: a peer connects, sends or stops sending; the engine reads from a
connection, writes a response to it, or reads no more because it has stopped; it listens no more
once it shuts down, and has stopped when its requests are drained or were given up; the router makes
a step. Connections that are open when it has stopped get a second, and then the process ends. -/
inductive Event where
  | connect
  | send (link : Nat) (octets : Bytes)
  | peerDone (link : Nat)
  | read (link : Nat)
  | write (link n : Nat)
  | halt (link : Nat)
  | close
  | stop
  | exit
  | router (event : CodeAssist.Event)

def link? (e : Engine) (k : Nat) : Option Link := e.links.lookup k

def put (e : Engine) (k : Nat) (l : Link) : Engine :=
  { e with links := Table.put k l e.links }

/-- Reads a frame from a connection. A request is numbered and handed to the router; a frame that
holds none is answered at once. -/
def readFrom (e : Engine) (k : Nat) (l : Link) : Option Engine :=
  if !l.peerDone && Frame.isPartial l.unread then none
  else match Incoming.next l.unread with
    | .frame (.request request) rest => do
        let router ← e.router.step? (.arrive request true)
        some ({ e with router }.put k
          { l with unread := rest, awaited := l.awaited ++ [e.router.nextArrival] })
    | .frame (.refused response) rest =>
        some (e.put k { l with unread := rest, written := l.written ++ [response] })
    | .finished last =>
        some (e.put k { l with reads := false, written := l.written ++ last.toList })

/-- The step of an engine whose process has not ended. -/
def stepAlive? (e : Engine) (event : Engine.Event) : Option Engine :=
  match event with
  | .connect => if e.listens then some (e.put (e.links.length + 1) {}) else none
  | .send k octets => do
      let l ← e.link? k
      if l.peerDone then none else some (e.put k { l with unread := l.unread ++ octets })
  | .peerDone k => do
      let l ← e.link? k
      some (e.put k { l with peerDone := true })
  | .read k => do
      let l ← e.link? k
      if l.reads then e.readFrom k l else none
  | .write k n => do
      let l ← e.link? k
      let response ← e.router.response? n
      if n ∈ l.awaited then
        some (e.put k
          { l with awaited := l.awaited.erase n, written := l.written ++ [response] })
      else none
  | .halt k => do
      let l ← e.link? k
      if l.reads && e.router.lifecycle = .stopped then some (e.put k { l with reads := false })
      else none
  | .close =>
      if e.listens && e.router.lifecycle.hasReached .shuttingDown then do
        let router ← e.router.step? .drainStart
        some { e with listens := false, router }
      else none
  | .stop =>
      if !e.listens && e.router.drain = .idle then do
        let router ← e.router.step? (.lifecycle .stopped)
        some { e with router }
      else none
  | .exit =>
      if !e.listens && e.router.drain = .idle && e.router.lifecycle = .stopped then
        some { e with exited := true }
      else none
  | .router event => do
      let router ← e.router.step? event
      some { e with router }

def step? (e : Engine) (event : Engine.Event) : Option Engine :=
  if e.exited then none else e.stepAlive? event

end Engine

end CodeAssist
