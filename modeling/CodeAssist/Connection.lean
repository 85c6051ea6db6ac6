import CodeAssist.Frame
import CodeAssist.Message.Request
import CodeAssist.Message.Response

namespace CodeAssist

open Text (Bytes)

/-- A frame as the engine takes it: a request to serve, or one that is refused at once. -/
inductive Incoming where
  | request (request : Request)
  | refused (response : Response)
deriving DecidableEq, Repr

namespace Incoming

def ofBody (body : Bytes) : Incoming :=
  match Request.decode body with
  | .ok decoded => .request decoded
  | .error (id, cause) => .refused (.failure id .transport cause.message)

/-- What comes next on a stream: a frame and the rest, or the end. A stream on which frames cannot
be told apart any more ends with one last response. -/
inductive Next where
  | frame (incoming : Incoming) (rest : Bytes)
  | finished (last : Option Response)
deriving DecidableEq, Repr

def next (s : Bytes) : Next :=
  match Frame.read s with
  | .body body rest => .frame (ofBody body) rest
  | .finished => .finished none
  | .failed .connectionClosed _ => .finished none
  | .failed cause _ => .finished (some (.failure .null .transport cause.message))

theorem next_rest_lt {s rest : Bytes} {incoming : Incoming}
    (found : next s = .frame incoming rest) : rest.length < s.length := by
  unfold next at found
  split at found
  · next body left read =>
      injection found with _ rest_eq
      subst rest_eq
      exact Frame.read_rest_lt read
  · contradiction
  · contradiction
  · contradiction

def ofStream (s : Bytes) : List Incoming × Option Response :=
  match _found : next s with
  | .finished last => ([], last)
  | .frame incoming rest =>
      let (later, last) := ofStream rest
      (incoming :: later, last)
termination_by s.length
decreasing_by exact next_rest_lt _found

end Incoming

end CodeAssist
