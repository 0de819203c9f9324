import Switchboard.Proofs.Traffic.Exchange

/-!
# What others may do

A call shares its fabric with others. Whatever they wait for and do, it counts among what `Others`
allows if it is not about the stream of the call or its request: they use other streams of the same
session, ask for streams, accept them and close sessions (`others_meet`, `others_perform`), the
connections of other sessions move (`others_stepSession`), and time passes while the peer puts bytes
into the channel and takes them from it (`others_of_seats`).
-/

namespace Switchboard

open Mux

variable {s s' s'' : Session} {stage : CallStage} {request k : Nat} {e : StreamEnd}

/-! ## Sessions -/

namespace CallStage.Spares

theorem refl (h : s.Tidy) (stage : CallStage) : stage.Spares s s :=
  ⟨h, rfl, fun _ _ _ he => he⟩

theorem trans (h : stage.Spares s s') (h' : stage.Spares s' s'') : stage.Spares s s'' where
  tidy := h'.tidy
  stream := h'.stream.trans h.stream
  carries k e hk he := h'.carries k e (h.stream.trans hk) (h.carries k e hk he)

/-- Only who has asked for a stream sees what becomes of requests. -/
theorem of_granted (htidy : s'.Tidy)
    (hgranted : ∀ request, stage = .opening request → s'.granted? request = s.granted? request)
    (hcarries : ∀ k e, stage.stream? s = some k → s.connection.Carries k e →
      s'.connection.Carries k e) : stage.Spares s s' := by
  refine ⟨htidy, ?_, hcarries⟩
  cases stage with
  | opening request => exact hgranted request rfl
  | _ => rfl

theorem connection {c : Mux.Connection} (h : s.Tidy) (htidy : c.Tidy)
    (hcarries : ∀ k e, stage.stream? s = some k → s.connection.Carries k e → c.Carries k e) :
    stage.Spares s { s with connection := c } :=
  .of_granted ⟨htidy, h.openings⟩ (fun _ _ => rfl) hcarries

theorem of_same (h : s.Tidy) (hconnection : s'.connection = s.connection)
    (hopenings : s'.openings = s.openings) : stage.Spares s s' := by
  refine .of_granted ⟨hconnection ▸ h.connection, hopenings ▸ h.openings⟩ (fun request _ => ?_)
    fun k e _ he => hconnection ▸ he
  unfold Session.granted?
  rw [hopenings]

end CallStage.Spares

namespace Session

open CallStage (Spares)

theorem spares_request (h : s.Tidy) (stage : CallStage) : stage.Spares s s.request.2 := by
  refine .of_granted (tidy_request h) (fun request _ => ?_) fun k e _ he => ?_
  · unfold granted? Session.request
    split <;> rfl
  · unfold Session.request
    split
    · exact he
    · exact ⟨he.only, he.own, he.begun, he.kept⟩

/-- The answer to one request is collected apart from those to others. -/
theorem granted?_collect (h : s.Tidy) {openings : Openings} {r : Nat} (hne : r ≠ request)
    (htidy : Tidy { s with openings })
    (hanswers : openings.answers = (s.openings.collect request).2.answers) :
    granted? r { s with openings } = s.granted? r := by
  refine Option.ext fun k => ?_
  rw [granted?_iff htidy, granted?_iff h]
  dsimp only
  rw [hanswers, Openings.mem_answers_collect, and_iff_left hne]

theorem spares_collect (h : s.Tidy) (hopen : s.cancelled = false)
    (hother : stage ≠ .opening request) : stage.Spares s (s.collect request).2 := by
  have hsnd : (s.collect request).2 = { s with openings := (s.openings.collect request).2 } := by
    unfold Session.collect
    rw [if_neg (by rw [hopen]; decide)]
    split <;> rename_i heq <;> rw [heq]
  have htidy : Tidy { s with openings := (s.openings.collect request).2 } := by
    refine ⟨h.connection, ?_⟩
    dsimp only
    rw [(s.openings.collect_rest request).1]
    cases hlookup : s.openings.answers.lookup request with
    | none => rw [Openings.collect_of_none hlookup]; exact h.openings
    | some answer => exact h.openings.collect (Openings.mem_of_lookup hlookup) fun _ _ hr => hr
  rw [hsnd]
  refine .of_granted htidy (fun r hr => granted?_collect h ?_ htidy rfl) fun _ _ _ he => he
  rintro rfl
  exact hother hr

theorem spares_drop (h : s.Tidy) {j : Nat} (hother : stage.stream? s ≠ some j)
    (hbegun : s.connection.isOwn j = true → j < s.connection.nextStream) :
    stage.Spares s (s.drop j) := by
  refine .connection h (Connection.tidy_drop h.connection hbegun) fun k e hk he => ?_
  refine he.drop h.connection.running ?_
  rintro rfl
  exact hother hk

theorem spares_abandon (h : s.Tidy) (hother : stage ≠ .opening request)
    (hstream : ∀ j, s.granted? request = some j → stage.stream? s ≠ some j ∧
      (s.connection.isOwn j = true → j < s.connection.nextStream)) :
    stage.Spares s (s.abandon request) := by
  have hfst : (s.openings.abandon request).1 = s.granted? request := Openings.abandon_fst
  have htidy := (tidy_abandon h fun j hj => (hstream j hj).2).1
  have hanswers : (s.openings.abandon request).2.answers =
      (s.openings.collect request).2.answers := by rw [Openings.abandon_snd]
  have hless : Tidy { s with openings := (s.openings.abandon request).2 } := by
    refine ⟨h.connection, ?_⟩
    have hnext : (s.openings.abandon request).2.next = s.openings.next :=
      (s.openings.collect_rest request).1
    dsimp only
    rw [hnext]
    exact h.openings.abandon fun _ _ hr => hr
  have hspares : stage.Spares s { s with openings := (s.openings.abandon request).2 } := by
    refine .of_granted hless (fun r hr => granted?_collect h ?_ hless hanswers) fun _ _ _ he => he
    rintro rfl
    exact hother hr
  unfold Session.abandon
  split <;> rename_i heq <;> rw [heq] at hfst hspares hless
  · exact hspares
  · obtain ⟨hne, hbegun⟩ := hstream _ hfst.symm
    exact hspares.trans (spares_drop hless (hspares.stream ▸ hne) hbegun)

theorem spares_act {α : Type} {f : Bool → StreamEnd → Ready α × StreamEnd × Option Order} {j : Nat}
    (h : s.Tidy) (hid : ∀ e, (f true e).2.1.id = e.id) (hother : stage.stream? s ≠ some j) :
    stage.Spares s { s with connection := (s.connection.act j f).2 } := by
  refine .connection h (Connection.tidy_act h.connection hid j) fun k e hk he => ?_
  refine he.act_of_ne h.connection.running hid ?_
  rintro rfl
  exact hother hk

theorem spares_close (h : s.Tidy) (hopen : s.close.2.isClosed = false) :
    stage.Spares s s.close.2 := by
  cases hclosing : s.closing with
  | true =>
    rw [close_of_closing hclosing]
    exact .refl h _
  | false =>
    rw [close_of_open hclosing] at hopen
    have hcancelled : s.cancel.cancelled = true := s.cancelled_cancel
    exact absurd ((isClosed_of_cancelled hcancelled).symm.trans hopen) nofun

end Session

/-! ## Fabrics -/

namespace Exchange

variable {t : Exchange} {f f' : Fabric}

theorem others_of_seats (hseats : f.seats = t.fabric.seats) (hnow : t.fabric.now ≤ f.now) :
    t.Others f where
  becomes := .of_seats hseats
  later := hnow
  leaves s s' hs hs' _ htidy := by
    unfold Fabric.session? at hs'
    rw [hseats] at hs'
    cases hs.symm.trans hs'
    exact .refl htidy _

theorem Others.trans (h : t.Others f) (h' : (t.on f).Others f') : t.Others f' where
  becomes := h.becomes.trans h'.becomes
  later := Nat.le_trans h.later h'.later
  leaves s s'' hs hs'' hopen htidy := by
    obtain ⟨s', hs', -⟩ := h.becomes.goOn _ s hs
    obtain ⟨r, hr, hgoes⟩ := h'.becomes.goOn _ s' hs'
    cases hr.symm.trans hs''
    have hopen' : s'.isClosed = false := by
      cases hclosed : s'.isClosed with
      | false => rfl
      | true => rw [hgoes.isClosed hclosed] at hopen; cases hopen
    have hspares := h.leaves s s' hs hs' hopen' htidy
    exact hspares.trans (h'.leaves s' s'' hs' hs'' hopen hspares.tidy)

theorem others_onSession {α : Type} (id : Nat) (g : Session → α × Session)
    (hbecomes : t.fabric.Becomes (t.fabric.onSession id g).2)
    (hspares : id = t.call.session → ∀ s, t.session? = some s → s.Tidy →
      (g s).2.isClosed = false → t.call.stage.Spares s (g s).2) :
    t.Others (t.fabric.onSession id g).2 where
  becomes := hbecomes
  later := Nat.le_of_eq (Fabric.onSession_now _ id g).symm
  leaves s s' hs hs' hopen htidy := by
    rw [Fabric.session?_onSession] at hs'
    split at hs'
    · rename_i heq
      rw [← heq, show t.fabric.session? t.call.session = some s from hs] at hs'
      cases hs'
      exact hspares heq.symm s hs htidy hopen
    · cases hs.symm.trans hs'
      exact .refl htidy _

/-- Another stream than that of the call; if it is one of this side, it was begun. -/
def Foreign (t : Exchange) (ref : StreamRef) : Prop :=
  ref.session = t.call.session → ∀ s, t.session? = some s →
    t.call.stage.stream? s ≠ some ref.stream ∧
      (s.connection.isOwn ref.stream = true → ref.stream < s.connection.nextStream)

/-- What others wait for is no business of the call, -/
def ForeignNeed (t : Exchange) : Need → Prop
  | .granted id request => id = t.call.session → t.call.stage ≠ .opening request
  | .read ref _ | .write ref _ _ | .finish ref => t.Foreign ref
  | _ => True

/-- nor is what they do. -/
def ForeignDeed (t : Exchange) : Deed → Prop
  | .drop ref => t.Foreign ref
  | .abandon id request => id = t.call.session → t.call.stage ≠ .opening request ∧
      ∀ s, t.session? = some s → ∀ k, s.granted? request = some k → t.Foreign ⟨id, k⟩
  | .name name _ => ∀ old, t.fabric.streams.lookup name = some old → t.Foreign old
  | _ => True

theorem others_onStream {α : Type} {ref : StreamRef}
    (g : Nat → Bool → StreamEnd → Ready α × StreamEnd × Option Order) (give : α → Signal)
    (hid : ∀ e, (g ref.stream true e).2.1.id = e.id) (hforeign : t.Foreign ref) :
    t.Others (t.fabric.onStream ref (fun id c => c.act id (g id)) give).2 :=
  others_onSession ref.session (fun s =>
      ((s.connection.act ref.stream (g ref.stream)).1,
        { s with connection := (s.connection.act ref.stream (g ref.stream)).2 }))
    (t.fabric.becomes_onStream ref (fun id c => c.act id (g id)) give) fun hsession s hs htidy _ =>
      Session.spares_act htidy hid (hforeign hsession s hs).1

/-- **Others wait** for what they like. -/
theorem others_meet {need : Need} (h : t.ForeignNeed need) : t.Others (t.fabric.meet need).2 := by
  have hbecomes := t.fabric.becomes_meet need
  have hnow := Nat.le_of_eq (t.fabric.meet_now need).symm
  cases need with
  | request id =>
    exact others_onSession id _ hbecomes fun _ s _ htidy _ => s.spares_request htidy _
  | granted id request =>
    refine others_onSession id (Session.collect request) hbecomes fun hsession s _ htidy hopen => ?_
    have hcancelled : s.cancelled = false := by
      cases hcancelled : s.cancelled with
      | false => rfl
      | true =>
        have hclosed := (s.becomes_collect request).cancelled hcancelled
        rw [Session.isClosed, hclosed] at hopen
        cases hopen
    exact Session.spares_collect htidy hcancelled (h hsession)
  | queue id =>
    refine others_onSession id Session.queue hbecomes fun _ s _ htidy _ => ?_
    unfold Session.queue
    split
    · exact .refl htidy _
    · exact .of_same htidy rfl rfl
  | accepted id acceptor =>
    refine others_onSession id (Session.accept acceptor) hbecomes fun _ s _ htidy _ => ?_
    rcases s.accept_cases acceptor with heq | ⟨-, heq⟩ | ⟨k, arrived, -, heq⟩ <;> rw [heq]
    · exact .refl htidy _
    · exact .of_same htidy rfl rfl
    · exact .of_same htidy rfl rfl
  | read ref room =>
    exact others_onStream (fun _ running e => e.read room running) .bytes
      (fun e => (e.read_rest room).1) h
  | write ref data start =>
    refine others_onStream (fun _ running e => e.write data start running) .taken (fun e => ?_) h
    unfold StreamEnd.write
    repeat' split
    all_goals rfl
  | finish ref =>
    exact others_onStream (fun _ running e => e.finish running) (fun _ => .done)
      (fun e => e.finish_cases.2.1.id) h
  | pour id data start =>
    refine others_of_seats ?_ hnow
    unfold Fabric.meet
    dsimp only
    split <;> rfl
  | draw id room =>
    refine others_of_seats ?_ hnow
    unfold Fabric.meet
    dsimp only
    split <;> rfl
  | _ => exact others_of_seats rfl (Nat.le_refl _)

theorem others_modifySession {g : Session → Session} (id : Nat)
    (hbecomes : ∀ s : Session, s.Becomes (g s))
    (hspares : id = t.call.session → ∀ s, t.session? = some s → s.Tidy →
      (g s).isClosed = false → t.call.stage.Spares s (g s)) :
    t.Others (t.fabric.modifySession id g) :=
  others_onSession id (fun s => ((), g s)) (Fabric.becomes_modifySession _ id hbecomes) hspares

theorem others_dropStream {ref : StreamRef} (h : t.Foreign ref) :
    t.Others (t.fabric.dropStream ref) := by
  have hfirst : t.Others { t.fabric with streams := t.fabric.streams.filter (·.2 ≠ ref) } :=
    others_of_seats rfl (Nat.le_refl _)
  refine hfirst.trans (others_modifySession ref.session (fun s => s.becomes_drop _)
    fun hsession s hs htidy _ => ?_)
  obtain ⟨hother, hbegun⟩ := h hsession s hs
  exact Session.spares_drop htidy hother hbegun

/-- **Others do** what they like. -/
theorem others_perform {deed : Deed} (h : t.ForeignDeed deed) :
    t.Others (t.fabric.perform deed) := by
  cases deed with
  | drop ref => exact others_dropStream h
  | abandon id request =>
    refine others_modifySession id (fun s => s.becomes_abandon request)
      fun hsession s hs htidy _ => ?_
    obtain ⟨hother, hstreams⟩ := h hsession
    exact Session.spares_abandon htidy hother fun j hj => hstreams s hs j hj hsession s hs
  | leave id acceptor =>
    exact others_modifySession id (fun s => s.becomes_leave acceptor) fun _ s _ htidy _ =>
      .of_same htidy rfl rfl
  | name name ref =>
    change t.Others (t.fabric.nameStream name ref)
    unfold Fabric.nameStream
    dsimp only
    split
    · rename_i old heq
      exact (others_dropStream (h old heq)).trans (others_of_seats rfl (Nat.le_refl _))
    · exact others_of_seats rfl (Nat.le_refl _)
  | close id =>
    have hclose : t.Others (t.fabric.onSession id Session.close).2 :=
      others_onSession id Session.close
        (t.fabric.becomes_onSession id fun s _ => s.becomes_close) fun _ s _ htidy hopen =>
          Session.spares_close htidy hopen
    have hnow : (t.fabric.onSession id Session.close).2.now = (t.fabric.closeSession id).now :=
      (Fabric.onSession_now _ id _).trans (t.fabric.perform_now (.close id)).symm
    exact hclose.trans (others_of_seats (t.fabric.closeSession_seats id) (Nat.le_of_eq hnow))
  | _ => exact others_of_seats rfl (Nat.le_refl _)

theorem others_stepSession {id : Nat} (h : id ≠ t.call.session) :
    t.Others (t.fabric.stepSession id).2 := by
  rcases t.fabric.stepSession_cases id with heq | ⟨s, s', pipes, hs, ⟨_, _, _, _, hstep⟩, heq⟩
  · rw [heq]
    exact others_of_seats rfl (Nat.le_refl _)
  · have hmove : t.Others (t.fabric.onSession id fun _ => ((), s')).2 := by
      refine others_onSession id _ (t.fabric.becomes_onSession id fun r hr => ?_)
        fun hsession => absurd hsession h
      cases hs.symm.trans hr
      exact Session.becomes_step hstep
    rw [heq]
    exact hmove.trans (others_of_seats rfl (Nat.le_refl _))

end Exchange

end Switchboard
