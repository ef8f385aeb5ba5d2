import HeapRefs.Session.State

/-! # Operations on handles and marks -/

namespace HeapRefs.Session

def State.withHandle (s : State) (name : String) (k : Handle → Effect) : Effect :=
  match s.locals.handles.get? name with
  | none => s.refused (.unbound name)
  | some h => k h

namespace HandleOp

/-- A mark that replaces another is made before the other is released. -/
def apply (b : Build) (s : State) : HandleOp → Effect
  | create target source =>
    s.withView source fun v =>
      s.withContext fun c =>
        let (h, thread) := s.thread.anchor c v.address
        State.done
          { s with thread, locals := { s.locals with handles := s.locals.handles.set target h } }
          (.handle h)
  | resolve target handle origin =>
    s.withHandle handle fun h =>
      s.withContext fun c =>
        match b.asserts, c.anchors.address? h with
        | true, none => s.fault (.releasedHandle h.index)
        | _, address? =>
          let (r, s) := s.create b.managed (address?.getD 0) origin
          s.bindDone target ⟨r, none⟩
  | address name =>
    s.withHandle name fun h =>
      s.withContext fun c => s.done (.heldAddress (c.anchors.address? h))
  | equal left right =>
    s.withHandle left fun h => s.withHandle right fun g => s.done (.truth (h == g))
  | mark name =>
    s.withContext fun c =>
      let released := match s.locals.marks.get? name with
        | none => c
        | some old => c.release old
      State.done
        { s with
          thread := s.thread.setContext released
          locals := { s.locals with marks := s.locals.marks.set name c.anchors.mark } }
        (.done .marked)
  | release name =>
    match s.locals.marks.get? name with
    | none => s.refused (.unbound name)
    | some m =>
      s.withContext fun c =>
        State.done
          { s with
            thread := s.thread.setContext (c.release m)
            locals := { s.locals with marks := s.locals.marks.erase name } }
          (.done .released)
  | relocate source target =>
    s.withWord source fun a =>
      s.withWord target fun d =>
        s.withContext fun c =>
          State.done { s with thread := s.thread.setContext (c.relocate a d) }
            (.count (c.anchors.count a))

end HandleOp

end HeapRefs.Session
