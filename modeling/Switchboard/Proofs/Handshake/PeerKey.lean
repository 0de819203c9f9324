import Switchboard.Fabric.Reception
import Switchboard.Proofs.Handshake.Agreement
import Switchboard.Proofs.Handshake.Heads
import Switchboard.Proofs.Registry.Keeping

/-!
# An agent is registered under its own key

An agent sends its key in the first header after `Host`, and the headers that its configuration adds
come behind it. A listener takes the first header of the name that it asks for, so it finds the
agent's own key if that name is not `Host` (`keyOf_request`). `registered_under_own_key`
says so of every run of the two against each other.
-/

namespace Switchboard

namespace Text

theorem sameLetters_self (name : String) : sameLetters name name = true :=
  beq_self_eq_true _

end Text

namespace Headers

variable {key value name : String}

theorem find?_cons_same (h : Text.sameLetters key name = true) (headers : Headers) :
    find? ((key, value) :: headers) name = some value := by
  rw [find?, List.findSome?_cons]
  simp only [h, if_true]

theorem find?_cons_other (h : Text.sameLetters key name = false) (headers : Headers) :
    find? ((key, value) :: headers) name = find? headers name := by
  rw [find?, List.findSome?_cons]
  simp only [h, Bool.false_eq_true, if_false]
  rfl

end Headers

namespace Dialer

/-- The key under which an agent belongs that comes from an address: its own without the blanks
around it, or the address if nothing is left of it. -/
def keyAt (dialer : Dialer) (remoteIp : String) : String :=
  if (trimmed dialer.peerKey).isEmpty then remoteIp else trimmed dialer.peerKey

/-- The handshake of an agent with a listener that calls it `remote`. -/
def upgrade (dialer : Dialer) (listener : Listener) (remote : String) : Upgrade :=
  ⟨dialer.request, some listener.upgradePath, dialer.serverAddr, remote⟩

/-- A listener finds the key of an agent among the headers of its request. -/
theorem keyOf_request {dialer : Dialer} {listener : Listener} {head : RequestHead}
    (hname : listener.peerHeader = dialer.peerHeader)
    (hhost : Text.sameLetters "Host" dialer.peerHeader = false)
    (hblank : trimmed dialer.peerHeader = dialer.peerHeader)
    (hheaders : head.headers = dialer.request.allHeaders.map readAs) (remoteIp : String) :
    listener.keyOf head remoteIp = dialer.keyAt remoteIp := by
  have hfind : Headers.find? head.headers listener.peerHeader = some (trimmed dialer.peerKey) := by
    have hfirst : Text.sameLetters (trimmed "Host") dialer.peerHeader = false := by
      have hread : trimmed "Host" = "Host" := by decide
      rw [hread]
      exact hhost
    have hsecond : Text.sameLetters (trimmed dialer.peerHeader) dialer.peerHeader = true := by
      rw [hblank]
      exact Text.sameLetters_self _
    have hread : head.headers = (trimmed "Host", trimmed dialer.serverAddr) ::
        (trimmed dialer.peerHeader, trimmed dialer.peerKey) ::
          (dialer.headers ++ [("Upgrade", "tcp"), ("Connection", "Upgrade")]).map readAs :=
      hheaders
    rw [hread, hname, Headers.find?_cons_other hfirst, Headers.find?_cons_same hsecond]
  simp only [Listener.keyOf, hfind]
  rfl

end Dialer

/-! ## The head that is granted -/

theorem Connection.readHead_of_granted {c c' : Connection} {peer : String}
    {expected : Option String} {head : RequestHead}
    (h : c.grantUpgrade peer expected = (.done head, c')) :
    (readHead parseRequestLine c.source).1 = .done (head.method, head.path) head.headers := by
  unfold grantUpgrade at h
  split at h
  · cases h
  · cases h
  · rename_i method path headers source hread
    rw [hread]
    dsimp only at h
    split at h
    · cases h
    · split at h <;> cases h
      rfl

namespace Upgrade

variable {u : Upgrade} {d : Duplex}

/-- A server that has agreed has granted a head with the headers of the request. -/
theorem Sound.granted_headers (h : u.Sound d)
    (ha : u.standing .granter (d.partner .granter) = .agreed) :
    ∃ head c, (d.partner .granter).connection.grantUpgrade u.agent u.expected = (.done head, c) ∧
      head.headers = u.request.allHeaders.map readAs := by
  obtain ⟨hg, -, hheard⟩ := h.agreed ha
  have hneed := u.need_granter_of_reply (u.granted_iff.1 hg)
  have hread := (readBytes_granter (h.hears .granter)).1 (by rw [hneed]; exact hheard)
  obtain ⟨left, hhead, -⟩ := (d.partner .granter).readHead_eq parseRequestLine
  rw [hread.2] at hhead
  -- The standing is that of the result, so the result is a head.
  have hconduct : (u.conduct .granter (d.partner .granter).connection).1 = .agreed := by
    unfold standing at ha
    split at ha
    · cases ha
    · exact ha
  simp only [conduct] at hconduct
  cases hresult : (d.partner .granter).connection.grantUpgrade u.agent u.expected with
  | mk result c =>
    rw [hresult] at hconduct
    cases result with
    | failed fault => cases hconduct
    | waiting => cases hconduct
    | done head =>
      refine ⟨head, c, rfl, ?_⟩
      have hdone := Connection.readHead_of_granted hresult
      rw [hhead] at hdone
      obtain ⟨first, headers, hasks⟩ := u.readBytes_of_reply (u.granted_iff.1 hg)
      rw [hasks] at hdone
      cases hdone
      rcases u.asks_cases with ⟨fault, -, hempty⟩ | ⟨text, htext, heq, -⟩
      · rw [hempty] at hasks
        cases hasks
      · rw [heq] at hasks
        exact (UpgradeRequest.headers_of_done htext hasks).2

end Upgrade

/-! ## Registration -/

theorem Fabric.register_registry {f : Fabric} {id : Nat} {s : Session}
    (hs : f.session? id = some s) :
    (f.register id).registry = (f.registry.insert s.key id).2 := by
  unfold register
  rw [hs]
  exact f.supplant_registry s.key id

/-- A session that is hosted is registered under its key, and all other keys are as they were. -/
theorem Reception.find?_host (reception : Reception) (session : Session) (key : String) :
    (reception.host session).2.2.fabric.registry.find? key =
      if key = session.key then some (reception.host session).1
      else reception.fabric.registry.find? key := by
  let piped := (reception.fabric.addPipe DirectoryStep.capacity).2
  let fabric := (piped.addPipe DirectoryStep.capacity).2
  have hseated : (fabric.addSession session reception.fabric.pipes.size
      piped.pipes.size).2.session? fabric.seats.size = some session := by
    rw [Fabric.session?_addSession, if_pos rfl]
  change ((fabric.addSession session reception.fabric.pipes.size
      piped.pipes.size).2.register fabric.seats.size).registry.find? key = _
  rw [Fabric.register_registry hseated]
  exact Registry.find?_insert ..

/-- **An agent is registered under its own key.** In any run of an agent and a listener against each
other, with any other headers in the request of the agent: if the listener asks for the header in
which the agent gives its key, which is not `Host` and has no blanks around it, then once one
of the two has agreed the listener takes the agent in, under the agent's key without the blanks
around it, or under the address if that leaves nothing. Hosted by any reception, the session is what
is registered under that key, and what is registered under any other key stays. -/
theorem registered_under_own_key (dialer : Dialer) (listener : Listener)
    (hname : listener.peerHeader = dialer.peerHeader)
    (hhost : Text.sameLetters "Host" dialer.peerHeader = false)
    (hblank : trimmed dialer.peerHeader = dialer.peerHeader) (remoteIp : String) (port : Nat)
    (up down : Nat) (hup : 0 < up) (hdown : 0 < down) (moves : List Duplex.Move) (d : Duplex)
    (hrun : runFrom (dialer.upgrade listener s!"{remoteIp}:{port}").step (Duplex.start up down)
      moves = some d)
    (s : Side)
    (hagreed : (dialer.upgrade listener s!"{remoteIp}:{port}").standing s (d.partner s) =
      .agreed) :
    ∃ session c, listener.takeIn remoteIp port (d.partner .granter).connection =
        (.registered session, c) ∧
      session.key = dialer.keyAt remoteIp ∧
      ∀ (reception : Reception) (key : String),
        (reception.host session).2.2.fabric.registry.find? key =
          if key = dialer.keyAt remoteIp then some (reception.host session).1
          else reception.fabric.registry.find? key := by
  have h : (dialer.upgrade listener s!"{remoteIp}:{port}").Sound d :=
    runFrom_keeps (fun _ _ _ h hstep => h.step hstep) (Upgrade.sound_start _ hup hdown) hrun
  have hgranted : (dialer.upgrade listener s!"{remoteIp}:{port}").standing .granter
      (d.partner .granter) = .agreed := by
    cases s with
    | seeker => exact h.granter_agreed hagreed
    | granter => exact hagreed
  obtain ⟨head, c, hresult, hheaders⟩ := h.granted_headers hgranted
  have hkey : listener.keyOf head remoteIp = dialer.keyAt remoteIp :=
    Dialer.keyOf_request hname hhost hblank hheaders remoteIp
  have htaken : listener.takeIn remoteIp port (d.partner .granter).connection =
      (.registered (.start (listener.keyOf head remoteIp) s!"{remoteIp}:{port}" .server), c) := by
    have hgrant : (d.partner .granter).connection.grantUpgrade s!"{remoteIp}:{port}"
      (some listener.upgradePath) = (.done head, c) := hresult
    unfold Listener.takeIn
    dsimp only
    rw [hgrant]
  refine ⟨_, c, htaken, hkey, fun reception key => ?_⟩
  rw [reception.find?_host, ← hkey]
  rfl

/-- An agent whose configuration adds a header of the same name with another key. -/
def usurper : Dialer :=
  ⟨"h", "/", "X-Peer", " nas01", [("x-peer", "nas02")]⟩

/-- Its handshake with a listener that sees it come from an address. -/
def usurpation : Upgrade :=
  usurper.upgrade ⟨"/", "X-Peer"⟩ ("10.0.0.7" ++ ":" ++ toString 40000)

theorem registered_under_own_key_usurper :
    ∃ d, runFrom usurpation.step (Duplex.start 64 64)
        [.send .seeker 64, .hear .granter 30, .hear .granter 64, .send .seeker 64,
          .hear .granter 64, .send .granter 100] = some d ∧
      Text.sameLetters "Host" usurper.peerHeader = false ∧
      trimmed usurper.peerHeader = usurper.peerHeader ∧
      usurpation.standing .granter (d.partner .granter) = .agreed ∧
      ∃ session c, Listener.takeIn ⟨"/", "X-Peer"⟩ "10.0.0.7" 40000
          (d.partner .granter).connection = (.registered session, c) ∧
        session.key = "nas01" := by
  have hmap : (runFrom usurpation.step (Duplex.start 64 64)
      [.send .seeker 64, .hear .granter 30, .hear .granter 64, .send .seeker 64,
        .hear .granter 64, .send .granter 100]).map (fun d =>
      usurpation.standing .granter (d.partner .granter)) = some .agreed := by decide +kernel
  obtain ⟨d, hrun, hagreed⟩ := Option.map_eq_some_iff.1 hmap
  have hhost : Text.sameLetters "Host" usurper.peerHeader = false := by decide
  have hblank : trimmed usurper.peerHeader = usurper.peerHeader := by decide
  obtain ⟨session, c, htaken, hkey, -⟩ := registered_under_own_key usurper ⟨"/", "X-Peer"⟩ rfl
    hhost hblank "10.0.0.7" 40000 64 64 (by decide) (by decide) _ d hrun .granter hagreed
  have hown : usurper.keyAt "10.0.0.7" = "nas01" := by decide
  exact ⟨d, hrun, hhost, hblank, hagreed, session, c, htaken, hkey.trans hown⟩

end Switchboard
