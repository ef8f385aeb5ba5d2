import HeapRefs.Session.Codecs
import HeapRefs.Session.Handles
import HeapRefs.Session.Objects
import HeapRefs.Session.References
import HeapRefs.Session.Threads

/-! # Running sessions

A spawned thread starts without a context, with counters at zero and no variables. The thread that
spawns it goes on at its end, with what all threads share and in the storage that it leaves.
-/

namespace HeapRefs.Session

def Op.apply (b : Build) (s : State) : Op → Effect
  | .thread op => op.apply s
  | .reference op => op.apply b s
  | .heap op => op.apply b s
  | .handle op => op.apply b s
  | .codec op => op.apply b s

mutual

def Step.run (b : Build) (s : State) : Step → Reply × State
  | .op op =>
    let e := op.apply b s
    (.step e.outcome e.log e.state.counts?, e.state)
  | .spawn steps =>
    let (replies, inner) := runSteps b (.start s.shared s.thread.next) steps
    let (ending, ended) := inner.finish
    let s := { s with shared := ended.shared, thread := s.thread.join ended.thread }
    (.spawned replies ending s.counts?, s)

def runSteps (b : Build) (s : State) : List Step → List Reply × State
  | [] => ([], s)
  | step :: steps =>
    let (reply, s) := step.run b s
    let (replies, s) := runSteps b s steps
    (reply :: replies, s)

end

def replies (b : Build) (steps : List Step) : List Reply := (runSteps b .initial steps).1

end HeapRefs.Session
