import Switchboard.Proofs.Channel.Writing
import Switchboard.Proofs.Handshake.Lines

/-!
# What each side of a handshake does

A side of a handshake is what `seekUpgrade` or `grantUpgrade` makes of the connection as that side
has met it so far: the chunks that it has heard, the bytes that the channel has taken, and whether
a read met the end or a write failed. The two sides are known once their texts are: the head that
the agent sends, and the answer of the server to all of it (`Upgrade.text`). For a side that
has heard a beginning of the other side's text, `standing_seeker` and `standing_granter` say how it
stands, and `written_seeker` and `written_granter` what it has to say, by counting bytes.
-/

namespace Switchboard

/-- How a side of a handshake stands: it has not returned, or it has with a success or a failure. -/
inductive Standing where
  | pending
  | agreed
  | refused
  deriving DecidableEq, Repr

def HandshakeResult.standing {α : Type} : HandshakeResult α → Standing
  | done _ => .agreed
  | failed _ => .refused
  | waiting => .pending

inductive Side where
  | seeker
  | granter
  deriving DecidableEq, Repr

def Side.other : Side → Side
  | seeker => granter
  | granter => seeker

namespace Side

@[simp] theorem other_other (s : Side) : s.other.other = s := by
  cases s <;> rfl

theorem other_ne (s : Side) : s.other ≠ s := by
  cases s <;> decide

theorem eq_or_other (s t : Side) : t = s ∨ t = s.other := by
  cases s <;> cases t <;> decide

end Side

/-- What a handshake is about: the request, the path that the server expects if it expects one, and
the names that the sides have for each other. -/
structure Upgrade where
  request : UpgradeRequest
  expected : Option String
  server : String
  agent : String

structure Partner where
  /-- The chunks that its reads gave. -/
  heard : List ByteArray := []
  /-- Whether a read met the end. -/
  ended : Bool := false
  /-- How many bytes the channel has taken from it. -/
  put : Nat := 0
  /-- Whether a write failed. -/
  cut : Bool := false
  /-- What it was given to send after the handshake. -/
  said : ByteArray := ByteArray.empty
  /-- Whether it has let go of the connection. -/
  gone : Bool := false

def Partner.connection (p : Partner) : Connection :=
  ⟨⟨p.heard.map .bytes, !p.ended⟩,
    { breaksAt := if p.cut then some (p.put, .brokenPipe) else none }⟩

namespace Upgrade

/-- What a side does on a connection: how it stands then, and what is left of the connection. -/
def conduct (u : Upgrade) (s : Side) (c : Connection) : Standing × Connection :=
  match s with
  | .seeker =>
    let (result, c) := c.seekUpgrade u.server u.request
    (result.standing, c)
  | .granter =>
    let (result, c) := c.grantUpgrade u.agent u.expected
    (result.standing, c)

/-- The bytes of the handshake that a side has to say so far. -/
def written (u : Upgrade) (s : Side) (p : Partner) : ByteArray :=
  (u.conduct s p.connection).2.sink.written

/-- How a side stands. It does not return before the channel has taken what it has to say. -/
def standing (u : Upgrade) (s : Side) (p : Partner) : Standing :=
  if p.put < (u.written s p).size then .pending else (u.conduct s p.connection).1

/-- What the transport of a side gives of the bytes that the side has heard. -/
def received (u : Upgrade) (s : Side) (p : Partner) : ByteArray :=
  (u.conduct s p.connection).2.source.drain.1

/-- The head that the agent sends, if it sends one. -/
def asks (u : Upgrade) : ByteArray :=
  match u.request.head with
  | .ok head => head.toUTF8
  | .error _ => ByteArray.empty

/-- Whether the server grants the request once it has all of it. -/
def Granted (u : Upgrade) : Prop :=
  (u.conduct .granter (Partner.connection { heard := [u.asks] })).1 = .agreed

instance (u : Upgrade) : Decidable u.Granted :=
  inferInstanceAs (Decidable (_ = _))

/-- What a side has to say in the handshake if the other side lets it. -/
def text (u : Upgrade) : Side → ByteArray
  | .seeker => u.asks
  | .granter => u.written .granter { heard := [u.asks] }

/-- How many bytes a side has to hear to be settled. -/
def need (u : Upgrade) : Side → Nat
  | .seeker => HeadReader.need (parseStatusLine u.server) (bytesOf (u.text .granter))
  | .granter => HeadReader.need parseRequestLine (bytesOf u.asks)

end Upgrade

/-! ## Reading and writing -/

namespace Sink

theorem writeAll_whole (data : ByteArray) :
    ∃ writes, writeAll data {} = (none, { written := data, writes }) := by
  have haccepting : ∀ n fault, ¬ Refuses {} n fault := by
    intro n fault hrefuses
    cases hrefuses with
    | broken hbreaks => cases hbreaks
    | stuck hportion => cases hportion
  obtain ⟨writes, hwrite⟩ := writeAll_of_accepting haccepting data
  rw [ByteArray.empty_append] at hwrite
  exact ⟨writes, hwrite⟩

/-- Writing to a channel that breaks once it has taken `limit` bytes. -/
theorem writeAll_breaking (data : ByteArray) (limit : Nat) (kind : IoKind) :
    ∃ writes, writeAll data { breaksAt := some (limit, kind) } =
      (if limit < data.size then some (.bare kind) else none,
        { breaksAt := some (limit, kind), written := data.extract 0 limit, writes }) := by
  rcases hrun : writeAll data { breaksAt := some (limit, kind) } with ⟨failure, after⟩
  obtain ⟨part, hwriting⟩ := writing_of_writeAll hrun
  cases hwriting with
  | whole hfits =>
    have hle : data.size ≤ limit := hfits limit kind rfl
    rw [if_neg (by omega), Bytes.extract_zero_of_le hle, ByteArray.empty_append]
    exact ⟨_, rfl⟩
  | cut hn hrefuses =>
    cases hrefuses with
    | stuck hportion => cases hportion
    | @broken limit kind hbreaks hlimit =>
      cases hbreaks
      rw [ByteArray.size_empty, Nat.sub_zero] at hlimit
      subst hlimit
      rw [if_pos hn, ByteArray.empty_append]
      exact ⟨_, rfl⟩

end Sink

namespace Partner

/-- What a channel takes of some bytes before it breaks, if it does. -/
def taken (p : Partner) (data : ByteArray) : ByteArray :=
  if p.cut then data.extract 0 p.put else data

theorem taken_empty (p : Partner) : p.taken ByteArray.empty = ByteArray.empty := by
  unfold taken
  by_cases hcut : p.cut = true
  · rw [if_pos hcut, Bytes.extract_zero_of_le (Nat.zero_le _)]
  · rw [if_neg hcut]

theorem taken_of_not_cut {p : Partner} (h : p.cut = false) (data : ByteArray) :
    p.taken data = data :=
  if_neg (by rw [h]; decide)

/-- Whether a channel breaks before it has taken so many bytes. -/
def breaksBefore (p : Partner) (n : Nat) : Prop :=
  p.cut = true ∧ p.put < n

instance (p : Partner) (n : Nat) : Decidable (p.breaksBefore n) :=
  inferInstanceAs (Decidable (_ ∧ _))

theorem readHead_eq {α : Type} (p : Partner) (parse : String → Except Fault α) :
    ∃ left : List ByteArray,
      readHead parse p.connection.source =
        ((HeadReader.readBytes parse (bytesOf (joined p.heard)) {}).1.atEnd (!p.ended),
          ⟨left.map .bytes, !p.ended⟩) ∧
      bytesOf (joined left) = (HeadReader.readBytes parse (bytesOf (joined p.heard)) {}).2 :=
  readHeadFrom_chunks parse (!p.ended) p.heard {}

theorem writeAll_eq (p : Partner) (data : ByteArray) :
    ∃ writes, p.connection.sink.writeAll data =
      (if p.breaksBefore data.size then some (.bare .brokenPipe) else none,
        { p.connection.sink with written := p.taken data, writes }) := by
  obtain ⟨heard, ended, put, cut, said, gone⟩ := p
  cases cut with
  | false =>
    obtain ⟨writes, h⟩ := Sink.writeAll_whole data
    exact ⟨writes, h.trans (by rw [if_neg (by simp [breaksBefore])]; rfl)⟩
  | true =>
    obtain ⟨writes, h⟩ := Sink.writeAll_breaking data put .brokenPipe
    refine ⟨writes, h.trans ?_⟩
    simp only [breaksBefore, true_and]
    rfl

theorem send_eq (p : Partner) (source : Source) (data : ByteArray) :
    ∃ c, Connection.send data ⟨source, p.connection.sink⟩ =
        (if p.breaksBefore data.size then some (.bare .brokenPipe) else none, c) ∧
      c.source = source ∧ c.sink.written = p.taken data := by
  obtain ⟨writes, h⟩ := p.writeAll_eq data
  simp only [Connection.send, h]
  by_cases hb : p.breaksBefore data.size
  · rw [if_pos hb]
    exact ⟨_, rfl, rfl, rfl⟩
  · rw [if_neg hb]
    exact ⟨_, rfl, rfl, rfl⟩

end Partner

namespace HeadProgress

/-- The standing of a side whose reading of a head has come so far. -/
def standing {α : Type} (ended : Bool) : HeadProgress α → Standing
  | more _ => if ended then .refused else .pending
  | done .. => .agreed
  | failed _ => .refused

end HeadProgress

/-- The answer to a request of which so much is read, if there is one. -/
def RequestHead.answer? (expected : Option String) :
    HeadProgress (String × String) → Option Answer
  | .done (method, path) headers =>
    match (RequestHead.mk method path headers).refusal? expected with
    | some (answer, _) => some answer
    | none => some .switching
  | _ => none

theorem RequestHead.standing_of_no_answer {expected : Option String}
    {progress : HeadProgress (String × String)} (h : answer? expected progress = none)
    (hover : progress.isOver = true) (ended : Bool) : progress.standing ended = .refused := by
  cases progress with
  | more reader => cases hover
  | done first headers =>
    obtain ⟨method, path⟩ := first
    simp only [answer?] at h
    split at h <;> cases h
  | failed fault => rfl

theorem RequestHead.refusal?_ne_switching {head : RequestHead} {expected : Option String}
    {answer : Answer} {reason : String} (h : head.refusal? expected = some (answer, reason)) :
    answer ≠ .switching := by
  unfold refusal? at h
  simp only at h
  split at h
  · split at h
    · cases h; decide
    · cases expected with
      | none => cases h
      | some path =>
        simp only at h
        split at h
        · cases h
        · cases h; decide
  · simp only [Bool.not_false, if_true] at h
    cases h; decide

namespace Upgrade

variable (u : Upgrade) (p : Partner)

/-- The agent refuses to send a head that would not be lines. -/
theorem conduct_seeker_error {fault : Fault} (h : u.request.head = .error fault) :
    u.conduct .seeker p.connection = (.refused, p.connection) := by
  simp only [conduct, Connection.seekUpgrade, h]
  rfl

theorem conduct_seeker {head : String} (h : u.request.head = .ok head)
    {progress : HeadProgress Unit} {rest : List UInt8}
    (hread : HeadReader.readBytes (parseStatusLine u.server) (bytesOf (joined p.heard)) {} =
      (progress, rest)) :
    ∃ c, u.conduct .seeker p.connection =
        (if p.breaksBefore head.toUTF8.size then .refused else progress.standing p.ended, c) ∧
      c.sink.written = p.taken head.toUTF8 ∧
      (¬ p.breaksBefore head.toUTF8.size → bytesOf c.source.drain.1 = rest) := by
  obtain ⟨c, hsend, hsource, hwritten⟩ := p.send_eq p.connection.source head.toUTF8
  obtain ⟨left, hhead, hleft⟩ := p.readHead_eq (parseStatusLine u.server)
  rw [hread] at hhead hleft
  simp only [conduct, Connection.seekUpgrade, h]
  have hsend' : Connection.send head.toUTF8 p.connection = _ := hsend
  rw [hsend']
  by_cases hb : p.breaksBefore head.toUTF8.size
  · simp only [if_pos hb]
    exact ⟨c, rfl, hwritten, fun hn => absurd hb hn⟩
  · simp only [if_neg hb, hsource, hhead]
    refine ⟨{ c with source := ⟨left.map .bytes, !p.ended⟩ }, ?_, hwritten, fun _ => ?_⟩
    · cases progress with
      | more reader => cases p.ended <;> rfl
      | done first headers => rfl
      | failed fault => rfl
    · rw [Source.drain_chunks, hleft]

/-- Until the server has read a head, or when it cannot, it says nothing. -/
theorem conduct_granter_silent {progress : HeadProgress (String × String)} {rest : List UInt8}
    (hread : HeadReader.readBytes parseRequestLine (bytesOf (joined p.heard)) {} =
      (progress, rest)) (h : RequestHead.answer? u.expected progress = none) :
    ∃ c, u.conduct .granter p.connection = (progress.standing p.ended, c) ∧
      c.sink.written = ByteArray.empty := by
  obtain ⟨left, hhead, -⟩ := p.readHead_eq parseRequestLine
  rw [hread] at hhead
  simp only [conduct, Connection.grantUpgrade, hhead]
  cases progress with
  | more reader => cases p.ended <;> exact ⟨_, rfl, rfl⟩
  | done first headers =>
    obtain ⟨method, path⟩ := first
    simp only [RequestHead.answer?] at h
    split at h <;> cases h
  | failed fault => exact ⟨_, rfl, rfl⟩

theorem conduct_granter_answer {progress : HeadProgress (String × String)} {rest : List UInt8}
    {answer : Answer} (hread : HeadReader.readBytes parseRequestLine (bytesOf (joined p.heard)) {} =
      (progress, rest)) (h : RequestHead.answer? u.expected progress = some answer) :
    ∃ c, u.conduct .granter p.connection =
        (if answer = .switching ∧ ¬ p.breaksBefore answer.bytes.size then .agreed else .refused,
          c) ∧
      c.sink.written = p.taken answer.bytes ∧ bytesOf c.source.drain.1 = rest := by
  obtain ⟨left, hhead, hleft⟩ := p.readHead_eq parseRequestLine
  rw [hread] at hhead hleft
  simp only [conduct, Connection.grantUpgrade, hhead]
  cases progress with
  | more reader => cases h
  | failed fault => cases h
  | done first headers =>
    obtain ⟨method, path⟩ := first
    have hrest : bytesOf (Source.mk (left.map .bytes) (!p.ended)).drain.1 = rest := by
      rw [Source.drain_chunks, hleft]
    simp only [RequestHead.answer?] at h
    simp only [HeadProgress.atEnd]
    cases hr : (RequestHead.mk method path headers).refusal? u.expected with
    | some refusal =>
      obtain ⟨found, reason⟩ := refusal
      rw [hr] at h
      cases h
      obtain ⟨writes, hwrite⟩ := p.writeAll_eq answer.bytes
      simp only [hwrite]
      rw [if_neg fun ha => RequestHead.refusal?_ne_switching hr ha.1]
      exact ⟨_, rfl, rfl, hrest⟩
    | none =>
      rw [hr] at h
      cases h
      obtain ⟨c, hsend, hsource, hwritten⟩ :=
        p.send_eq ⟨left.map .bytes, !p.ended⟩ Answer.switching.bytes
      simp only [hsend, true_and]
      rw [← hsource] at hrest
      by_cases hb : p.breaksBefore Answer.switching.bytes.size
      · rw [if_pos hb, if_neg (not_not_intro hb)]
        exact ⟨c, rfl, hwritten, hrest⟩
      · rw [if_neg hb, if_pos hb]
        exact ⟨c, rfl, hwritten, hrest⟩

/-! ## The texts of the two sides -/

/-- The answer of the server to the whole head, if it gives one. -/
def reply : Option Answer :=
  RequestHead.answer? u.expected (HeadReader.readBytes parseRequestLine (bytesOf u.asks) {}).1

/-- A request is refused before it is sent, or its head is read to its last byte or refused. -/
theorem asks_cases :
    (∃ fault, u.request.head = .error fault ∧ u.asks = ByteArray.empty) ∨
    ∃ head, u.request.head = .ok head ∧ u.asks = head.toUTF8 ∧
      HeadReader.Closes (HeadReader.readBytes parseRequestLine (bytesOf u.asks) {}) := by
  cases hh : u.request.head with
  | error fault => exact .inl ⟨fault, rfl, by rw [asks, hh]⟩
  | ok head =>
    have ha : u.asks = head.toUTF8 := by rw [asks, hh]
    refine .inr ⟨head, rfl, ha, ?_⟩
    rw [ha]
    exact UpgradeRequest.readBytes_of_head hh

/-- A server that answers has heard the head to its last byte. -/
theorem readBytes_of_reply {answer : Answer} (h : u.reply = some answer) :
    ∃ first headers,
      HeadReader.readBytes parseRequestLine (bytesOf u.asks) {} = (.done first headers, []) := by
  rcases u.asks_cases with ⟨fault, -, ha⟩ | ⟨head, -, -, ⟨fault, rest, hc⟩ | hc⟩
  · rw [reply, ha] at h
    cases h
  · rw [reply, hc] at h
    cases h
  · exact hc

theorem need_granter_of_reply {answer : Answer} (h : u.reply = some answer) :
    u.need .granter = u.asks.size := by
  obtain ⟨first, headers, hr⟩ := u.readBytes_of_reply h
  have hn := HeadReader.need_of_taken [] hr rfl
  rw [List.append_nil, length_bytesOf] at hn
  exact hn

theorem need_granter_le (h : u.asks.size ≠ 0) : u.need .granter ≤ u.asks.size := by
  rcases u.asks_cases with ⟨fault, -, ha⟩ | ⟨head, -, -, hc⟩
  · rw [ha] at h
    exact absurd rfl h
  · rw [need, ← length_bytesOf, HeadReader.need_le_iff]
    rcases hc with ⟨fault, rest, hc⟩ | ⟨first, headers, hc⟩
    · rw [hc]; rfl
    · rw [hc]; rfl

/-- A connection on which the server hears the head in one piece. -/
theorem joined_whole : joined (Partner.mk [u.asks] false 0 false ByteArray.empty false).heard =
    u.asks :=
  ByteArray.append_empty

theorem text_granter_of_reply {answer : Answer} (h : u.reply = some answer) :
    u.text .granter = answer.bytes := by
  obtain ⟨c, hc, hwritten, -⟩ := u.conduct_granter_answer { heard := [u.asks] }
    (by rw [u.joined_whole]) h
  rw [text, written, hc]
  exact hwritten

theorem text_granter_of_none (h : u.reply = none) : u.text .granter = ByteArray.empty := by
  obtain ⟨c, hc, hwritten⟩ := u.conduct_granter_silent { heard := [u.asks] }
    (by rw [u.joined_whole]) h
  rw [text, written, hc]
  exact hwritten

theorem granted_iff : u.Granted ↔ u.reply = some .switching := by
  unfold Granted
  cases hr : u.reply with
  | none =>
    obtain ⟨c, hc, -⟩ := u.conduct_granter_silent { heard := [u.asks] } (by rw [u.joined_whole]) hr
    rw [hc]
    cases hover : (HeadReader.readBytes parseRequestLine (bytesOf u.asks) {}).1.isOver with
    | false =>
      cases hp : (HeadReader.readBytes parseRequestLine (bytesOf u.asks) {}).1 with
      | more reader => simp [HeadProgress.standing]
      | done first headers => rw [hp] at hover; cases hover
      | failed fault => rw [hp] at hover; cases hover
    | true => rw [RequestHead.standing_of_no_answer hr hover]; simp
  | some answer =>
    obtain ⟨c, hc, -⟩ := u.conduct_granter_answer { heard := [u.asks] } (by rw [u.joined_whole]) hr
    rw [hc]
    by_cases ha : answer = .switching
    · rw [if_pos ⟨ha, by simp [Partner.breaksBefore]⟩, ha]
      simp
    · rw [if_neg fun h => ha h.1]
      simp [ha]

theorem need_seeker_of_granted (h : u.Granted) : u.need .seeker = (u.text .granter).size := by
  have hreply := u.granted_iff.1 h
  have hn := HeadReader.need_of_taken [] (Answer.readBytes_switching u.server) rfl
  rw [List.append_nil, length_bytesOf] at hn
  rw [need, u.text_granter_of_reply hreply, hn]

/-! ## How the sides stand -/

/-- A side has heard a beginning of what the other side says: of its text in the handshake, and, if
the upgrade is granted, of something more. -/
def Hears (s : Side) : Prop :=
  ∃ later n, n ≤ (u.text s.other ++ later).size ∧
    joined p.heard = (u.text s.other ++ later).extract 0 n ∧ (later.size ≠ 0 → u.Granted)

variable {u p}

/-- What a side that reads a head makes of what it has heard. -/
theorem readBytes_heard {α : Type} {parse : String → Except Fault α} {s : Side}
    (h : u.Hears p s)
    (hneed : u.Granted → HeadReader.need parse (bytesOf (u.text s.other)) ≤ (u.text s.other).size) :
    (HeadReader.need parse (bytesOf (u.text s.other)) ≤ (joined p.heard).size →
      (HeadReader.readBytes parse (bytesOf (u.text s.other)) {}).1.isOver = true ∧
      HeadReader.readBytes parse (bytesOf (joined p.heard)) {} =
        ((HeadReader.readBytes parse (bytesOf (u.text s.other)) {}).1,
          (bytesOf (joined p.heard)).drop (HeadReader.need parse (bytesOf (u.text s.other))))) ∧
    ((joined p.heard).size < HeadReader.need parse (bytesOf (u.text s.other)) →
      ∃ reader, HeadReader.readBytes parse (bytesOf (joined p.heard)) {} = (.more reader, [])) := by
  obtain ⟨later, n, hn, hheard, hlater⟩ := h
  have hsize : (joined p.heard).size = n := by
    rw [hheard, ByteArray.size_extract]; omega
  rw [hsize, hheard, bytesOf_beginning, bytesOf_append]
  refine HeadReader.readBytes_take _ _ (by rwa [← bytesOf_append, length_bytesOf]) fun hshort => ?_
  by_cases hl : later.size = 0
  · rw [ByteArray.size_eq_zero_iff.1 hl]; rfl
  · have := hneed (hlater hl)
    rw [length_bytesOf] at hshort
    omega

theorem taken_of_breaks {data : ByteArray} (h : p.breaksBefore data.size) :
    p.taken data = data.extract 0 p.put :=
  if_pos h.1

theorem taken_of_not_breaks {data : ByteArray} (h : ¬ p.breaksBefore data.size) :
    p.taken data = data := by
  unfold Partner.taken
  by_cases hcut : p.cut = true
  · have hput : ¬ p.put < data.size := fun hlt => h ⟨hcut, hlt⟩
    rw [if_pos hcut, Bytes.extract_zero_of_le (Nat.not_lt.1 hput)]
  · rw [if_neg hcut]

/-- A side that has some bytes to say, and stands as `verdict` once they are said. -/
theorem standing_of_taken {s : Side} {c : Connection} {data : ByteArray} {verdict : Standing}
    (hwritten : c.sink.written = p.taken data)
    (hc : u.conduct s p.connection =
      (if p.breaksBefore data.size then .refused else verdict, c)) :
    u.standing s p =
      if p.put < data.size then (if p.cut then .refused else .pending) else verdict := by
  rw [standing, written, hc, hwritten]
  by_cases hput : p.put < data.size
  · rw [if_pos hput]
    by_cases hcut : p.cut = true
    · have hb : p.breaksBefore data.size := ⟨hcut, hput⟩
      rw [taken_of_breaks hb, if_pos hb, if_pos hcut, if_neg]
      rw [ByteArray.size_extract]
      omega
    · have hb : ¬ p.breaksBefore data.size := fun h => hcut h.1
      rw [taken_of_not_breaks hb, if_pos hput, if_neg hcut]
  · have hb : ¬ p.breaksBefore data.size := fun h => hput h.2
    rw [taken_of_not_breaks hb, if_neg hput, if_neg hput, if_neg hb]

theorem readBytes_granter (h : u.Hears p .granter) :
    (u.need .granter ≤ (joined p.heard).size →
      (HeadReader.readBytes parseRequestLine (bytesOf u.asks) {}).1.isOver = true ∧
      HeadReader.readBytes parseRequestLine (bytesOf (joined p.heard)) {} =
        ((HeadReader.readBytes parseRequestLine (bytesOf u.asks) {}).1,
          (bytesOf (joined p.heard)).drop (u.need .granter))) ∧
    ((joined p.heard).size < u.need .granter →
      ∃ reader, HeadReader.readBytes parseRequestLine (bytesOf (joined p.heard)) {} =
        (.more reader, [])) :=
  readBytes_heard h fun hg => Nat.le_of_eq (u.need_granter_of_reply (u.granted_iff.1 hg))

theorem standing_granter (h : u.Hears p .granter) :
    u.standing .granter p =
      if (joined p.heard).size < u.need .granter then (if p.ended then .refused else .pending)
      else if p.put < (u.text .granter).size then (if p.cut then .refused else .pending)
      else if u.Granted then .agreed else .refused := by
  obtain ⟨hover, hmore⟩ := readBytes_granter h
  by_cases hneed : (joined p.heard).size < u.need .granter
  · obtain ⟨reader, hr⟩ := hmore hneed
    obtain ⟨c, hc, hwritten⟩ := u.conduct_granter_silent p hr rfl
    rw [standing, written, hc, hwritten, ByteArray.size_empty, if_neg (Nat.not_lt_zero _),
      if_pos hneed]
    rfl
  · obtain ⟨hover, hr⟩ := hover (Nat.not_lt.1 hneed)
    rw [if_neg hneed]
    cases hreply : u.reply with
    | none =>
      have hg : ¬ u.Granted := fun hg => by rw [u.granted_iff.1 hg] at hreply; cases hreply
      obtain ⟨c, hc, hwritten⟩ := u.conduct_granter_silent p hr hreply
      rw [standing, written, hc, hwritten, u.text_granter_of_none hreply, ByteArray.size_empty,
        if_neg (Nat.not_lt_zero _), if_neg (Nat.not_lt_zero _), if_neg hg,
        RequestHead.standing_of_no_answer hreply hover]
    | some answer =>
      obtain ⟨c, hc, hwritten, -⟩ := u.conduct_granter_answer p hr hreply
      rw [u.text_granter_of_reply hreply]
      refine standing_of_taken hwritten (hc.trans ?_)
      by_cases hb : p.breaksBefore answer.bytes.size
      · rw [if_neg fun ha => ha.2 hb, if_pos hb]
      · rw [if_neg hb]
        by_cases ha : answer = .switching
        · rw [if_pos ⟨ha, hb⟩, if_pos (u.granted_iff.2 (by rw [hreply, ha]))]
        · rw [if_neg fun h => ha h.1, if_neg]
          intro hg
          rw [u.granted_iff.1 hg] at hreply
          exact ha (Option.some.inj hreply).symm

/-- What the server has to say, and what its transport gives. -/
theorem granter_after (h : u.Hears p .granter) :
    u.written .granter p =
      (if (joined p.heard).size < u.need .granter then ByteArray.empty
        else p.taken (u.text .granter)) ∧
    (u.standing .granter p = .agreed →
      bytesOf (u.received .granter p) = (bytesOf (joined p.heard)).drop u.asks.size) := by
  obtain ⟨hover, hmore⟩ := readBytes_granter h
  have hstand := standing_granter h
  by_cases hneed : (joined p.heard).size < u.need .granter
  · obtain ⟨reader, hr⟩ := hmore hneed
    obtain ⟨c, hc, hwritten⟩ := u.conduct_granter_silent p hr rfl
    rw [if_pos hneed] at hstand ⊢
    refine ⟨by rw [written, hc, hwritten], fun ha => ?_⟩
    rw [hstand] at ha
    split at ha <;> cases ha
  · obtain ⟨hover, hr⟩ := hover (Nat.not_lt.1 hneed)
    rw [if_neg hneed] at hstand ⊢
    cases hreply : u.reply with
    | none =>
      obtain ⟨c, hc, hwritten⟩ := u.conduct_granter_silent p hr hreply
      refine ⟨?_, fun ha => ?_⟩
      · rw [written, hc, hwritten, u.text_granter_of_none hreply, Partner.taken_empty]
      · have hg : ¬ u.Granted := fun hg => by rw [u.granted_iff.1 hg] at hreply; cases hreply
        rw [hstand, if_neg hg] at ha
        split at ha
        · split at ha <;> cases ha
        · cases ha
    | some answer =>
      obtain ⟨c, hc, hwritten, hrest⟩ := u.conduct_granter_answer p hr hreply
      rw [written, received, hc, u.text_granter_of_reply hreply,
        ← u.need_granter_of_reply hreply]
      exact ⟨hwritten, fun _ => hrest⟩

/-! ### The agent -/

theorem written_seeker : u.written .seeker p = p.taken u.asks := by
  rw [written]
  rcases u.asks_cases with ⟨fault, hh, ha⟩ | ⟨head, hh, ha, -⟩
  · rw [u.conduct_seeker_error p hh, ha, Partner.taken_empty]
    rfl
  · obtain ⟨c, hc, hwritten, -⟩ := u.conduct_seeker p hh rfl
    rw [hc, ha]
    exact hwritten

theorem asks_of_empty (h : u.asks.size = 0) : ∃ fault, u.request.head = .error fault := by
  rcases u.asks_cases with ⟨fault, hh, -⟩ | ⟨head, -, -, hc⟩
  · exact ⟨fault, hh⟩
  · rw [ByteArray.size_eq_zero_iff.1 h] at hc
    rcases hc with ⟨fault, rest, hc⟩ | ⟨first, headers, hc⟩ <;> cases hc

/-- What comes of the answer of the server once the agent has heard so much of it. -/
theorem progress_answer (ended : Bool)
    (hover : (HeadReader.readBytes (parseStatusLine u.server)
      (bytesOf (u.text .granter)) {}).1.isOver = true) :
    (HeadReader.readBytes (parseStatusLine u.server) (bytesOf (u.text .granter)) {}).1.standing
      ended = if u.Granted then .agreed else .refused := by
  cases hreply : u.reply with
  | none => rw [u.text_granter_of_none hreply] at hover; cases hover
  | some answer =>
    rw [u.text_granter_of_reply hreply]
    by_cases ha : answer = .switching
    · rw [ha] at hreply ⊢
      rw [Answer.readBytes_switching, if_pos (u.granted_iff.2 hreply)]
      rfl
    · obtain ⟨fault, rest, hr⟩ := Answer.readBytes_refusal u.server ha
      rw [hr, if_neg]
      · rfl
      · intro hg
        rw [u.granted_iff.1 hg] at hreply
        exact ha (Option.some.inj hreply).symm

theorem readBytes_seeker (h : u.Hears p .seeker) :
    (u.need .seeker ≤ (joined p.heard).size →
      (HeadReader.readBytes (parseStatusLine u.server)
        (bytesOf (u.text .granter)) {}).1.isOver = true ∧
      HeadReader.readBytes (parseStatusLine u.server) (bytesOf (joined p.heard)) {} =
        ((HeadReader.readBytes (parseStatusLine u.server) (bytesOf (u.text .granter)) {}).1,
          (bytesOf (joined p.heard)).drop (u.need .seeker))) ∧
    ((joined p.heard).size < u.need .seeker →
      ∃ reader, HeadReader.readBytes (parseStatusLine u.server) (bytesOf (joined p.heard)) {} =
        (.more reader, [])) :=
  readBytes_heard h fun hg => Nat.le_of_eq (u.need_seeker_of_granted hg)

theorem standing_seeker (h : u.Hears p .seeker) :
    u.standing .seeker p =
      (if u.asks.size = 0 then .refused
      else if p.put < u.asks.size then (if p.cut then .refused else .pending)
      else if (joined p.heard).size < u.need .seeker then (if p.ended then .refused else .pending)
      else if u.Granted then .agreed else .refused) ∧
    (u.standing .seeker p = .agreed →
      bytesOf (u.received .seeker p) =
        (bytesOf (joined p.heard)).drop (u.text .granter).size) := by
  by_cases hempty : u.asks.size = 0
  · obtain ⟨fault, hh⟩ := asks_of_empty hempty
    have hc := u.conduct_seeker_error p hh
    have hstand : u.standing .seeker p = .refused := by
      rw [standing, written, hc]
      exact if_neg (Nat.not_lt_zero _)
    rw [hstand, if_pos hempty]
    exact ⟨rfl, fun ha => by cases ha⟩
  · rcases u.asks_cases with ⟨fault, -, ha⟩ | ⟨head, hh, ha, -⟩
    · rw [ha] at hempty
      exact absurd rfl hempty
    · rw [if_neg hempty]
      obtain ⟨c, hc, hwritten, hrest⟩ := u.conduct_seeker p hh rfl
      have hstand := standing_of_taken hwritten hc
      rw [ha, hstand]
      by_cases hput : p.put < head.toUTF8.size
      · rw [if_pos hput]
        refine ⟨(if_pos hput).symm, fun hs => ?_⟩
        split at hs <;> cases hs
      · rw [if_neg hput, if_neg hput]
        obtain ⟨hover, hmore⟩ := readBytes_seeker h
        by_cases hneed : (joined p.heard).size < u.need .seeker
        · obtain ⟨reader, hr⟩ := hmore hneed
          rw [if_pos hneed, hr]
          refine ⟨rfl, fun hs => ?_⟩
          simp only [HeadProgress.standing] at hs
          split at hs <;> cases hs
        · obtain ⟨hover, hr⟩ := hover (Nat.not_lt.1 hneed)
          rw [hr] at hrest ⊢
          rw [if_neg hneed, progress_answer p.ended hover]
          refine ⟨rfl, fun hs => ?_⟩
          by_cases hg : u.Granted
          · rw [received, hc, ← u.need_seeker_of_granted hg]
            exact hrest fun hb => hput hb.2
          · rw [if_neg hg] at hs
            cases hs

end Upgrade

end Switchboard
