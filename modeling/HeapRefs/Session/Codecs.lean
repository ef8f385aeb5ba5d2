import HeapRefs.Session.State

/-! # Operations on codecs -/

namespace HeapRefs.Session

def State.withCodec (s : State) (name : String) (k : Codec → Effect) : Effect :=
  match s.locals.codecs.get? name with
  | none => s.refused (.unbound name)
  | some c => k c

namespace CodecOp

def apply (b : Build) (s : State) : CodecOp → Effect
  | create target base shift start stop =>
    s.withWord base fun base =>
      s.withWord start fun start =>
        s.withWord stop fun stop =>
          match Codec.ofLayout base shift start stop with
          | .error e => s.failed (.layout e)
          | .ok c =>
            State.done { s with locals := { s.locals with codecs := s.locals.codecs.set target c } }
              (.codec c)
  | equal left right =>
    s.withCodec left fun c => s.withCodec right fun d => s.done (.truth (c == d))
  | encode codec source =>
    s.withCodec codec fun c =>
      s.withView source fun v =>
        match c.encodeOrFault b.asserts v.address with
        | .error f => s.fault f
        | .ok n => s.done (.narrow n)
  | decode target codec n origin =>
    s.withCodec codec fun c =>
      let (r, s) := s.create b.managed (c.decode n) origin
      s.bindDone target ⟨r, none⟩
  | install name =>
    s.withCodec name fun c =>
      let (content?, shared) := s.shared.installCodec b.platform.once c
      let s := { s with shared }
      match content? with
      | none => s.failed .codecInUse
      | some content => ⟨.done (.codec content), s, [s.record (.codecInstalled content)]⟩
  | installed =>
    match s.shared.codec? with
    | none => s.done .nothing
    | some c => s.done (.codec c)
  | ask query =>
    match s.shared.codec?, query.resolve s.word? with
    | none, _ => s.refused .noCodec
    | _, none => s.refused .noAddress
    | some c, some q =>
      match c.answer b.asserts q with
      | .error e => s.failed e
      | .ok a => s.done (.query a)

end CodecOp

end HeapRefs.Session
