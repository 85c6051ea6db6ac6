import CodeAssist.Host.Launch
import CodeAssist.Resolver

namespace CodeAssist.Host

def probe (h : Host) (p : Probe) (interpreter : Path) :
    Except EnvironmentFailure (List Capability) × Host :=
  match p with
  | .fixed capabilities => (.ok capabilities, h)
  | .run budget =>
      let (result, h) := h.run (Probe.command interpreter budget) false
      (Probe.ofEnd interpreter result, h)

def resolve (h : Host) (r : Resolver) (selection : Selection) (wanted : Option Kind)
    (root : Path) (refresh : Bool) : Except EnvironmentFailure Interpreter × Resolver × Host :=
  match r.start h.view selection wanted root refresh with
  | .failed cause => (.error cause, r, h)
  | .found interpreter => (.ok interpreter, r, h)
  | .unprobed path kind =>
      let (answer, h) := h.probe r.probe path
      let (result, r) := r.finish path kind answer
      (result, r, h)

end CodeAssist.Host
