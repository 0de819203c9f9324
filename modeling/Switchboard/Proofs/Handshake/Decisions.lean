import Mathlib.Data.List.Infix
import Switchboard.Proofs.Handshake.Conduct
import Switchboard.Proofs.Handshake.Grammar

/-!
# What each side of a handshake decides

A server grants an upgrade if the bytes that it reads begin with the head of a request, if the
request asks for the raw protocol, and if it is for the path that is expected. An agent has its
upgrade if the bytes begin with the head of an answer whose status line tells the switch. What
either of them writes is the text that belongs to its decision, and nothing else.

`grantUpgrade_decides` and `seekUpgrade_decides` say so of any bytes in any pieces, with the end of
the channel or silence behind them. The other direction of the channel takes what is written to it,
in portions of any size (`Sink.TakesAll`); how a server refuses does not depend on that.
-/

namespace Switchboard

namespace Text

/-- A text contains another if that stands somewhere in it. -/
theorem contains_iff {part cs : List Char} : contains part cs = true ↔ part <:+: cs := by
  induction cs with
  | nil => rw [contains, List.isEmpty_iff, List.infix_nil]
  | cons c cs ih =>
    rw [contains, Bool.or_eq_true, List.isPrefixOf_iff_prefix, ih, List.infix_cons_iff]

end Text

namespace Headers

/-- The header that is found is the first one of its name. -/
theorem find?_eq_some_iff {headers : Headers} {name value : String} :
    headers.find? name = some value ↔ ∃ before key after,
      headers = before ++ (key, value) :: after ∧
      (∀ header ∈ before, Text.sameLetters header.1 name = false) ∧
      Text.sameLetters key name = true := by
  rw [find?, List.findSome?_eq_some_iff]
  constructor
  · rintro ⟨before, ⟨key, found⟩, after, hheaders, hfound, hbefore⟩
    dsimp only at hfound
    by_cases hkey : Text.sameLetters key name = true
    · rw [if_pos hkey] at hfound
      cases hfound
      refine ⟨before, key, after, hheaders, fun header hm => ?_, hkey⟩
      by_contra hsame
      have hnone := hbefore header hm
      dsimp only at hnone
      rw [if_pos (by simpa using hsame)] at hnone
      cases hnone
    · rw [if_neg hkey] at hfound
      cases hfound
  · rintro ⟨before, key, after, hheaders, hbefore, hkey⟩
    refine ⟨before, (key, value), after, hheaders, if_pos hkey, fun header hm => ?_⟩
    exact if_neg (Bool.eq_false_iff.1 (hbefore header hm))

end Headers

/-! ## Writing to a channel that takes everything -/

namespace Sink

/-- Whether a channel takes whatever is written to it, in portions of any size. -/
structure TakesAll (sink : Sink) : Prop where
  unbroken : sink.breaksAt = none
  accepting : ∀ n, sink.portion n ≠ some 0
  flushing : ∀ n, sink.flushFault n = none

/-- Some bytes, and nothing else, are written to a channel, which is not shut down. -/
structure Wrote (data : ByteArray) (before after : Sink) : Prop where
  written : after.written = before.written ++ data
  shutdowns : after.shutdowns = before.shutdowns

/-- Some bytes, and nothing else, are written to a channel, which is then shut down. -/
def WroteAndShut (data : ByteArray) (before after : Sink) : Prop :=
  ∃ between, Wrote data before between ∧ after = between.shutdown

variable {sink : Sink}

theorem TakesAll.not_refuses (h : sink.TakesAll) (n : Nat) (fault : IoFault) :
    ¬ sink.Refuses n fault := by
  intro hrefuses
  cases hrefuses with
  | broken hbreaks =>
    rw [h.unbroken] at hbreaks
    cases hbreaks
  | stuck hportion => exact absurd hportion (h.accepting _)

theorem TakesAll.writeAll (h : sink.TakesAll) (data : ByteArray) :
    ∃ after, sink.writeAll data = (none, after) ∧ Wrote data sink after := by
  obtain ⟨writes, hwrite⟩ := writeAll_of_accepting h.not_refuses data
  exact ⟨_, hwrite, ⟨rfl, rfl⟩⟩

/-- Write all bytes and flush; the failure, if any. -/
def send (data : ByteArray) (sink : Sink) : Option IoFault × Sink :=
  match sink.writeAll data with
  | (some fault, sink) => (some fault, sink)
  | (none, sink) => sink.flush

theorem TakesAll.send (h : sink.TakesAll) (data : ByteArray) :
    ∃ after, sink.send data = (none, after) ∧ Wrote data sink after := by
  obtain ⟨writes, hwrite⟩ := writeAll_of_accepting h.not_refuses data
  rw [Sink.send, hwrite]
  simp only [flush, h.flushing]
  exact ⟨_, rfl, ⟨rfl, rfl⟩⟩

end Sink

/-! ## Reading from a channel in pieces -/

theorem joined_filter (chunks : List ByteArray) :
    joined (chunks.filter (·.size ≠ 0)) = joined chunks := by
  induction chunks with
  | nil => rfl
  | cons chunk chunks ih =>
    by_cases hsize : chunk.size = 0
    · rw [List.filter_cons_of_neg (by simpa using hsize), ih, joined_cons,
        ByteArray.size_eq_zero_iff.1 hsize, ByteArray.empty_append]
    · rw [List.filter_cons_of_pos (by simpa using hsize), joined_cons, joined_cons, ih]

theorem readHead_ofChunks {α : Type} (parse : String → Except Fault α) (chunks : List ByteArray)
    (silent : Bool) :
    ∃ left : List ByteArray,
      readHead parse (.ofChunks chunks silent) =
        ((HeadReader.readBytes parse (bytesOf (joined chunks)) {}).1.atEnd silent,
          ⟨left.map .bytes, silent⟩) ∧
      bytesOf (joined left) = (HeadReader.readBytes parse (bytesOf (joined chunks)) {}).2 := by
  obtain ⟨left, hread, hleft⟩ :=
    readHeadFrom_chunks parse silent (chunks.filter (·.size ≠ 0)) {}
  rw [joined_filter] at hread hleft
  exact ⟨left, hread, hleft⟩

section Form

variable {α : Type} {parse : String → Except Fault α} {IsFirst : String → α → Prop}

theorem BeginsWithHead.unique (hparse : ∀ line first, parse line = .ok first ↔ IsFirst line first)
    {bytes rest rest' : List UInt8} {first first' : α} {headers headers' : Headers}
    (h : BeginsWithHead IsFirst bytes first headers rest)
    (h' : BeginsWithHead IsFirst bytes first' headers' rest') :
    first' = first ∧ headers' = headers ∧ rest' = rest := by
  have hdone := (HeadReader.readBytes_eq_done_iff hparse).2 h
  rw [(HeadReader.readBytes_eq_done_iff hparse).2 h'] at hdone
  cases hdone
  exact ⟨rfl, rfl, rfl⟩

/-- How the reading of a head ends, by the form of the bytes: with the head that they begin with, or
it waits, or it fails. -/
theorem readHead_cases (hparse : ∀ line first, parse line = .ok first ↔ IsFirst line first)
    (chunks : List ByteArray) (silent : Bool) :
    (∃ first headers rest,
      BeginsWithHead IsFirst (bytesOf (joined chunks)) first headers rest ∧
      (readHead parse (.ofChunks chunks silent)).1 = .done first headers) ∨
    (∀ first headers rest,
      ¬ BeginsWithHead IsFirst (bytesOf (joined chunks)) first headers rest) ∧
    ((silent = true ∧ Unfinished IsFirst (bytesOf (joined chunks))) ∧
        (readHead parse (.ofChunks chunks silent)).1 = .waiting ∨
      ¬ (silent = true ∧ Unfinished IsFirst (bytesOf (joined chunks))) ∧
        ∃ fault, (readHead parse (.ofChunks chunks silent)).1 = .failed fault) := by
  obtain ⟨left, hread, -⟩ := readHead_ofChunks parse chunks silent
  rw [hread]
  rcases HeadReader.readBytes_cases hparse (bytesOf (joined chunks)) with
    ⟨first, headers, rest, hbegins⟩ | hmore | ⟨fault, rest, hfail⟩
  · rw [(HeadReader.readBytes_eq_done_iff hparse).2 hbegins]
    exact .inl ⟨first, headers, rest, hbegins, rfl⟩
  · obtain ⟨between, hread⟩ := HeadReader.readBytes_unfinished hparse hmore
    refine .inr ⟨fun first headers rest hbegins => ?_, ?_⟩
    · rw [(HeadReader.readBytes_eq_done_iff hparse).2 hbegins] at hread
      cases hread
    · rw [hread]
      cases silent with
      | true => exact .inl ⟨⟨rfl, hmore⟩, rfl⟩
      | false => exact .inr ⟨fun h => Bool.false_ne_true h.1, _, rfl⟩
  · refine .inr ⟨fun first headers rest hbegins => ?_, .inr ⟨fun ⟨_, hmore⟩ => ?_, fault, ?_⟩⟩
    · rw [(HeadReader.readBytes_eq_done_iff hparse).2 hbegins] at hfail
      cases hfail
    · obtain ⟨between, hread⟩ := HeadReader.readBytes_unfinished hparse hmore
      rw [hfail] at hread
      cases hread
    · rw [hfail]
      rfl

end Form

/-! ## First lines -/

/-- What a request line says: a method and a path, in its first two words, before a version of the
protocol. -/
def IsRequestLine (line : String) (first : String × String) : Prop :=
  ∃ version more, Text.words line.toList =
    first.1.toList :: first.2.toList :: version :: more ∧ "HTTP/1.".toList <+: version

/-- What a status line says that tells the switch of protocols. -/
def IsSwitchLine (line : String) (_ : Unit) : Prop :=
  "101".toList <:+: line.toList

theorem parseRequestLine_eq_ok_iff (line : String) (first : String × String) :
    parseRequestLine line = .ok first ↔ IsRequestLine line first := by
  obtain ⟨method, path⟩ := first
  unfold parseRequestLine IsRequestLine
  match hwords : Text.words line.toList with
  | [] | [_] | [_, _] => simp
  | word :: next :: version :: more =>
    simp only [List.map_cons, startsWith, String.toList_ofList, List.isPrefixOf_iff_prefix,
      List.cons.injEq]
    by_cases hversion : "HTTP/1.".toList <+: version
    · rw [if_pos hversion]
      constructor
      · intro h
        cases h
        exact ⟨version, more, ⟨String.toList_ofList.symm, String.toList_ofList.symm, rfl, rfl⟩,
          hversion⟩
      · rintro ⟨_, _, ⟨rfl, rfl, rfl, rfl⟩, -⟩
        rw [String.ofList_toList, String.ofList_toList]
    · rw [if_neg hversion]
      refine ⟨fun h => (by cases h), ?_⟩
      rintro ⟨_, _, ⟨-, -, rfl, -⟩, h⟩
      exact absurd h hversion

theorem parseStatusLine_eq_ok_iff (peer line : String) (first : Unit) :
    parseStatusLine peer line = .ok first ↔ IsSwitchLine line first := by
  have hcontains : Text.contains ['1', '0', '1'] line.toList = true ↔ IsSwitchLine line first :=
    Text.contains_iff
  unfold parseStatusLine
  by_cases hswitch : Text.contains ['1', '0', '1'] line.toList = true
  · exact iff_of_true (if_pos hswitch) (hcontains.1 hswitch)
  · refine iff_of_false ?_ fun h => hswitch (hcontains.2 h)
    rw [if_neg hswitch]
    rintro ⟨⟩

/-! ## Requests -/

namespace RequestHead

/-- Some bytes begin with this head, and `rest` stands behind it. -/
def Opens (head : RequestHead) (bytes rest : List UInt8) : Prop :=
  BeginsWithHead IsRequestLine bytes (head.method, head.path) head.headers rest

/-- Whether a request asks for the raw protocol: in its first header named `Upgrade`. -/
def AsksForUpgrade (head : RequestHead) : Prop :=
  ∃ before name value after, head.headers = before ++ (name, value) :: after ∧
    (∀ header ∈ before, Text.sameLetters header.1 "Upgrade" = false) ∧
    Text.sameLetters name "Upgrade" = true ∧ Text.sameLetters value "tcp" = true

/-- Whether a request is for the path that is expected, if one is. -/
def Targets (head : RequestHead) (expected : Option String) : Prop :=
  ∀ path, expected = some path → head.path = path

variable {head : RequestHead} {expected : Option String}

theorem asksForUpgrade_iff :
    head.AsksForUpgrade ↔
      ∃ value, head.headers.find? "Upgrade" = some value ∧ Text.sameLetters value "tcp" = true := by
  simp only [Headers.find?_eq_some_iff]
  constructor
  · rintro ⟨before, name, value, after, hheaders, hbefore, hname, hvalue⟩
    exact ⟨value, ⟨before, name, after, hheaders, hbefore, hname⟩, hvalue⟩
  · rintro ⟨value, ⟨before, name, after, hheaders, hbefore, hname⟩, hvalue⟩
    exact ⟨before, name, value, after, hheaders, hbefore, hname, hvalue⟩

theorem refusal?_unasked (h : ¬ head.AsksForUpgrade) :
    head.refusal? expected = some (.badRequest, "did not ask for Upgrade: tcp") := by
  rw [asksForUpgrade_iff] at h
  unfold refusal?
  cases hfind : Headers.find? head.headers "Upgrade" with
  | none => rfl
  | some value =>
    have hvalue : Text.sameLetters value "tcp" = false :=
      Bool.eq_false_iff.2 fun hsame => h ⟨value, hfind, hsame⟩
    simp only [hvalue]
    rfl

/-- Once a request asks for the raw protocol, the path decides. -/
theorem refusal?_asked (h : head.AsksForUpgrade) :
    head.refusal? expected =
      match expected with
      | some path =>
        if head.path = path then none
        else some (.notFound, s!"targeted unknown path {head.path}")
      | none => none := by
  obtain ⟨value, hfind, hvalue⟩ := asksForUpgrade_iff.1 h
  unfold refusal?
  simp only [hfind, hvalue]
  rfl

theorem refusal?_elsewhere (h : head.AsksForUpgrade) (helse : ¬ head.Targets expected) :
    head.refusal? expected = some (.notFound, s!"targeted unknown path {head.path}") := by
  rw [refusal?_asked h]
  cases expected with
  | none => exact absurd (fun _ hpath => nomatch hpath) helse
  | some path => exact if_neg fun hpath => helse fun _ heq => hpath.trans (Option.some.inj heq)

theorem refusal?_granted (h : head.AsksForUpgrade) (hpath : head.Targets expected) :
    head.refusal? expected = none := by
  rw [refusal?_asked h]
  cases expected with
  | none => rfl
  | some path => exact if_pos (hpath path rfl)

theorem Opens.unique {other : RequestHead} {bytes rest others : List UInt8}
    (h : head.Opens bytes rest) (hother : other.Opens bytes others) : other = head := by
  obtain ⟨hfirst, hheaders, -⟩ := BeginsWithHead.unique parseRequestLine_eq_ok_iff h hother
  obtain ⟨method, path, headers⟩ := head
  cases hfirst
  cases hheaders
  rfl

end RequestHead

namespace Connection

theorem send_eq (data : ByteArray) (c : Connection) :
    c.send data = ((c.sink.send data).1, { c with sink := (c.sink.send data).2 }) := by
  unfold send Sink.send
  rcases c.sink.writeAll data with ⟨fault | fault, sink⟩ <;> rfl

/-! ## The server -/

/-- What a server makes of what it has read, and the other direction of the channel then. -/
def verdict (peer : String) (expected : Option String) (sink : Sink) :
    HeadResult (String × String) → HandshakeResult RequestHead × Sink
  | .waiting => (.waiting, sink)
  | .failed fault => (.failed fault, sink)
  | .done (method, path) headers =>
    match RequestHead.refusal? ⟨method, path, headers⟩ expected with
    | some (answer, reason) =>
      (.failed (.upgrade s!"request from {peer} {reason}"),
        (sink.writeAll answer.bytes).2.shutdown)
    | none =>
      match sink.send Answer.switching.bytes with
      | (some fault, sink) => (.failed (.transport fault), sink)
      | (none, sink) => (.done ⟨method, path, headers⟩, sink)

theorem grantUpgrade_eq (peer : String) (expected : Option String) (source : Source)
    (sink : Sink) :
    grantUpgrade peer expected ⟨source, sink⟩ =
      ((verdict peer expected sink (readHead parseRequestLine source).1).1,
        ⟨(readHead parseRequestLine source).2,
          (verdict peer expected sink (readHead parseRequestLine source).1).2⟩) := by
  unfold grantUpgrade
  rcases readHead parseRequestLine source with ⟨⟨⟨method, path⟩, headers⟩ | fault | _, left⟩
  · simp only [verdict, send_eq]
    cases RequestHead.refusal? ⟨method, path, headers⟩ expected with
    | some refusal => rfl
    | none => rcases sink.send Answer.switching.bytes with ⟨fault | fault, after⟩ <;> rfl
  · rfl
  · rfl

/-- What a server has decided that has met some bytes, with silence or the end behind them: how it
ends, and what is written. -/
structure GrantDecision (peer : String) (expected : Option String) (bytes : List UInt8)
    (silent : Bool) (sink : Sink) (result : HandshakeResult RequestHead) (after : Sink) :
    Prop where
  /-- It grants exactly the requests that ask for the raw protocol at the path. -/
  done_iff : sink.TakesAll → ∀ head : RequestHead, result = .done head ↔
    (∃ rest, head.Opens bytes rest) ∧ head.AsksForUpgrade ∧ head.Targets expected
  granted : sink.TakesAll → ∀ head, result = .done head →
    Sink.Wrote "HTTP/1.1 101 Switching Protocols\r\n\r\n".toUTF8 sink after
  unasked : ∀ (head : RequestHead) (rest : List UInt8), head.Opens bytes rest →
    ¬ head.AsksForUpgrade →
    result = .failed (.upgrade <| s!"request from {peer} " ++ "did not ask for Upgrade: tcp") ∧
    (sink.TakesAll → Sink.WroteAndShut "HTTP/1.1 400 Bad Request\r\n\r\n".toUTF8 sink after)
  elsewhere : ∀ (head : RequestHead) (rest : List UInt8), head.Opens bytes rest →
    head.AsksForUpgrade → ¬ head.Targets expected →
    result = .failed (.upgrade <|
      s!"request from {peer} " ++ s!"targeted unknown path {head.path}") ∧
    (sink.TakesAll → Sink.WroteAndShut "HTTP/1.1 404 Not Found\r\n\r\n".toUTF8 sink after)
  /-- Without a head it writes nothing, and fails unless it waits for the rest of one. -/
  headless : (∀ (head : RequestHead) (rest : List UInt8), ¬ head.Opens bytes rest) →
    after = sink ∧
      ((silent = true ∧ Unfinished IsRequestLine bytes) ∧ result = .waiting ∨
        ¬ (silent = true ∧ Unfinished IsRequestLine bytes) ∧ ∃ fault, result = .failed fault)

variable {peer : String} {expected : Option String} {bytes rest : List UInt8} {silent : Bool}
  {sink : Sink} {head : RequestHead}

theorem GrantDecision.unasked_head (hopens : head.Opens bytes rest)
    (hasks : ¬ head.AsksForUpgrade) :
    GrantDecision peer expected bytes silent sink
      (.failed (.upgrade <| s!"request from {peer} " ++ "did not ask for Upgrade: tcp"))
      (sink.writeAll Answer.badRequest.bytes).2.shutdown where
  done_iff _ other := by
    refine iff_of_false (fun h => nomatch h) fun ⟨⟨others, hother⟩, hasked, _⟩ => hasks ?_
    exact hopens.unique hother ▸ hasked
  granted _ _ h := nomatch h
  unasked _ _ _ _ := by
    refine ⟨rfl, fun h => ?_⟩
    obtain ⟨between, hwrite, hwrote⟩ := h.writeAll Answer.badRequest.bytes
    exact ⟨between, hwrote, by rw [hwrite]⟩
  elsewhere _ _ hother hasked _ := absurd (hopens.unique hother ▸ hasked) hasks
  headless h := absurd hopens (h head rest)

theorem GrantDecision.elsewhere_head (hopens : head.Opens bytes rest) (hasks : head.AsksForUpgrade)
    (hpath : ¬ head.Targets expected) :
    GrantDecision peer expected bytes silent sink
      (.failed (.upgrade <| s!"request from {peer} " ++ s!"targeted unknown path {head.path}"))
      (sink.writeAll Answer.notFound.bytes).2.shutdown where
  done_iff _ other := by
    refine iff_of_false (fun h => nomatch h) fun ⟨⟨others, hother⟩, _, htargets⟩ => hpath ?_
    exact hopens.unique hother ▸ htargets
  granted _ _ h := nomatch h
  unasked _ _ hother hunasked := absurd (hopens.unique hother ▸ hasks) hunasked
  elsewhere _ _ hother _ _ := by
    refine ⟨by rw [hopens.unique hother], fun h => ?_⟩
    obtain ⟨between, hwrite, hwrote⟩ := h.writeAll Answer.notFound.bytes
    exact ⟨between, hwrote, by rw [hwrite]⟩
  headless h := absurd hopens (h head rest)

/-- A request that is as it should be is granted, if it can be answered. -/
theorem GrantDecision.granted_head {result : HandshakeResult RequestHead} {after : Sink}
    (hopens : head.Opens bytes rest) (hasks : head.AsksForUpgrade) (hpath : head.Targets expected)
    (hresult : sink.TakesAll →
      result = .done head ∧ Sink.Wrote Answer.switching.bytes sink after) :
    GrantDecision peer expected bytes silent sink result after where
  done_iff h other := by
    rw [(hresult h).1]
    constructor
    · rintro ⟨⟩
      exact ⟨⟨rest, hopens⟩, hasks, hpath⟩
    · rintro ⟨⟨others, hother⟩, -, -⟩
      rw [hopens.unique hother]
  granted h _ _ := (hresult h).2
  unasked _ _ hother hunasked := absurd (hopens.unique hother ▸ hasks) hunasked
  elsewhere _ _ hother _ helse := absurd (hopens.unique hother ▸ hpath) helse
  headless h := absurd hopens (h head rest)

theorem GrantDecision.no_head {result : HandshakeResult RequestHead}
    (hnone : ∀ (head : RequestHead) (rest : List UInt8), ¬ head.Opens bytes rest)
    (hresult : (silent = true ∧ Unfinished IsRequestLine bytes) ∧ result = .waiting ∨
      ¬ (silent = true ∧ Unfinished IsRequestLine bytes) ∧ ∃ fault, result = .failed fault) :
    GrantDecision peer expected bytes silent sink result sink := by
  have hdone : ∀ head, result ≠ .done head := by
    rintro head rfl
    rcases hresult with ⟨-, h⟩ | ⟨-, fault, h⟩ <;> cases h
  exact {
    done_iff := fun _ head =>
      iff_of_false (hdone head) fun ⟨⟨rest, hopens⟩, _⟩ => hnone head rest hopens
    granted := fun _ head h => absurd h (hdone head)
    unasked := fun head rest hopens => absurd hopens (hnone head rest)
    elsewhere := fun head rest hopens => absurd hopens (hnone head rest)
    headless := fun _ => ⟨rfl, hresult⟩ }

/-- **The decision of a server.** Whatever bytes come, in whatever pieces, and whether the channel
then ends or falls silent: the upgrade is granted exactly if the bytes begin with the head of a
request that asks for the raw protocol at the path that is expected, and then exactly the answer
that grants it is written. A request for something else, or for another path, is refused with
exactly the answer that says so, and the connection is shut down; what the server returns is the
same if that answer cannot be written. Without a head nothing is written and nothing shut down. -/
theorem grantUpgrade_decides (peer : String) (expected : Option String) (chunks : List ByteArray)
    (silent : Bool) (sink : Sink) :
    let run := grantUpgrade peer expected ⟨.ofChunks chunks silent, sink⟩
    GrantDecision peer expected (bytesOf (joined chunks)) silent sink run.1 run.2.sink := by
  intro run
  have hrun : run = _ := grantUpgrade_eq peer expected (.ofChunks chunks silent) sink
  rw [hrun]
  rcases readHead_cases parseRequestLine_eq_ok_iff chunks silent with
    ⟨⟨method, path⟩, headers, rest, hbegins, hread⟩ | ⟨hnone, hread⟩
  · have hopens : RequestHead.Opens ⟨method, path, headers⟩ (bytesOf (joined chunks)) rest :=
      hbegins
    simp only [hread, verdict]
    by_cases hasks : RequestHead.AsksForUpgrade ⟨method, path, headers⟩
    · by_cases hpath : RequestHead.Targets ⟨method, path, headers⟩ expected
      · simp only [RequestHead.refusal?_granted hasks hpath]
        refine .granted_head hopens hasks hpath fun h => ?_
        obtain ⟨after, hsend, hwrote⟩ := h.send Answer.switching.bytes
        rw [hsend]
        exact ⟨rfl, hwrote⟩
      · simp only [RequestHead.refusal?_elsewhere hasks hpath]
        exact .elsewhere_head hopens hasks hpath
    · simp only [RequestHead.refusal?_unasked hasks]
      exact .unasked_head hopens hasks
  · have hnone' : ∀ (head : RequestHead) (rest : List UInt8),
        ¬ head.Opens (bytesOf (joined chunks)) rest := fun head => hnone _ head.headers
    rcases hread with ⟨hwaits, hread⟩ | ⟨hends, fault, hread⟩
    · rw [hread]
      exact .no_head hnone' (.inl ⟨hwaits, rfl⟩)
    · rw [hread]
      exact .no_head hnone' (.inr ⟨hends, fault, rfl⟩)

/-- A request in two pieces, cut inside the end of its first line: it is granted, and not if another
path is expected. -/
theorem grantUpgrade_decides_in_pieces :
    let peer := "10.0.0.7:40000"
    let chunks := ["GET /a HTTP/1.1\r".toUTF8,
      "\nX-Peer: nas01\nupgrade:\tTCP\r\n\r\nmore".toUTF8]
    let head : RequestHead := ⟨"GET", "/a", [("X-Peer", "nas01"), ("upgrade", "TCP")]⟩
    Sink.TakesAll {} ∧ head.Opens (bytesOf (joined chunks)) (bytesOf "more".toUTF8) ∧
      (grantUpgrade peer none ⟨.ofChunks chunks true, {}⟩).1 = .done head ∧
      (grantUpgrade peer (some "/b") ⟨.ofChunks chunks true, {}⟩).1 =
        .failed (.upgrade <|
          s!"request from {peer} " ++ s!"targeted unknown path {head.path}") := by
  intro peer chunks head
  have htakes : Sink.TakesAll {} := ⟨rfl, fun _ => nofun, fun _ => rfl⟩
  have hfits : ∀ line ∈ ["X-Peer: nas01", "upgrade:\tTCP\r"], IsHeadLine line := by
    intro line hline
    simp only [List.mem_cons, List.not_mem_nil, or_false] at hline
    rcases hline with rfl | rfl <;> exact ⟨by decide, by decide⟩
  have hlines : AreHeaderLines 0 ["X-Peer: nas01", "upgrade:\tTCP\r"] head.headers :=
    ⟨by decide, hfits, .cons (parseHeader_eq_ok_iff.1 (by decide))
      (.cons (parseHeader_eq_ok_iff.1 (by decide)) .nil)⟩
  have hblank : IsBlankLine "\r" := (content_eq_empty_iff (by decide)).1 (by decide)
  have hopens : head.Opens (bytesOf (joined chunks)) (bytesOf "more".toUTF8) :=
    ⟨_, @IsHead.intro _ _ _ "\r" _ _ (@IsOpening.intro _ _ "GET /a HTTP/1.1\r" _ _ _
      ⟨by decide, by decide⟩ ((parseRequestLine_eq_ok_iff _ _).1 (by decide)) hlines)
      ⟨by decide, by decide⟩ hblank, by decide +kernel⟩
  have hasks : head.AsksForUpgrade :=
    RequestHead.asksForUpgrade_iff.2 ⟨"TCP", by decide, by decide⟩
  exact ⟨htakes, hopens,
    ((grantUpgrade_decides peer none chunks true {}).done_iff htakes head).2
      ⟨⟨_, hopens⟩, hasks, fun _ h => nomatch h⟩,
    ((grantUpgrade_decides peer (some "/b") chunks true {}).elsewhere head _ hopens hasks
      fun h => absurd (h "/b" rfl) (by decide)).1⟩

/-! ## The agent -/

def settlement : HeadResult Unit → HandshakeResult Unit
  | .waiting => .waiting
  | .failed fault => .failed fault
  | .done _ _ => .done ()

/-- An agent that has sent its head goes on as what it reads says. -/
theorem seekUpgrade_eq {request : UpgradeRequest} {text : String} {after : Sink}
    (hhead : request.head = .ok text) (hsend : sink.send text.toUTF8 = (none, after))
    (peer : String) (source : Source) :
    seekUpgrade peer request ⟨source, sink⟩ =
      (settlement (readHead (parseStatusLine peer) source).1,
        ⟨(readHead (parseStatusLine peer) source).2, after⟩) := by
  simp only [seekUpgrade, hhead, send_eq, hsend]
  rcases readHead (parseStatusLine peer) source with ⟨⟨first, headers⟩ | fault | _, left⟩ <;> rfl

/-- What an agent has decided that has sent its head and met some bytes, with silence or the end
behind them: how it ends, and what is left of the connection. -/
structure SeekDecision (peer text : String) (bytes : List UInt8) (silent : Bool) (sink : Sink)
    (result : HandshakeResult Unit) (after : Connection) : Prop where
  sent : Sink.Wrote text.toUTF8 sink after.sink
  done_iff : result = .done () ↔
    ∃ headers rest, BeginsWithHead IsSwitchLine bytes () headers rest
  /-- A status line that does not tell the switch is enough to fail, and nothing behind it is
  read. -/
  refused : ∀ line more, IsHeadLine line → ¬ IsSwitchLine (content line) () →
    bytes = sentLine line ++ more →
    result = .failed (.upgrade
      s!"unexpected status line from {peer}: {Text.quoted (content line)}") ∧
    bytesOf after.source.drain.1 = more
  headless : (∀ headers rest, ¬ BeginsWithHead IsSwitchLine bytes () headers rest) →
    (silent = true ∧ Unfinished IsSwitchLine bytes) ∧ result = .waiting ∨
      ¬ (silent = true ∧ Unfinished IsSwitchLine bytes) ∧ ∃ fault, result = .failed fault

theorem readBytes_statusLine_refused {line : String} (hline : IsHeadLine line)
    (hswitch : ¬ IsSwitchLine (content line) ()) (more : List UInt8) :
    HeadReader.readBytes (parseStatusLine peer) (sentLine line ++ more) {} =
      (.failed (.upgrade s!"unexpected status line from {peer}: {Text.quoted (content line)}"),
        more) := by
  have hparse : parseStatusLine peer (content line) =
      .error (.upgrade s!"unexpected status line from {peer}: {Text.quoted (content line)}") :=
    if_neg fun h => hswitch (Text.contains_iff.1 h)
  have hread : HeadReader.readBytes (parseStatusLine peer) (sentLine line) {} = _ :=
    HeadReader.readBytes_sentLine hline rfl
  rw [HeadReader.takeLine_first, hparse] at hread
  exact HeadReader.readBytes_append_over more hread rfl

/-- A first line that is refused is where reading ends, in whatever pieces it comes, and what stands
behind it is left. -/
theorem readHead_statusLine_refused {line : String} (hline : IsHeadLine line)
    (hswitch : ¬ IsSwitchLine (content line) ()) {chunks : List ByteArray} {more : List UInt8}
    (hbytes : bytesOf (joined chunks) = sentLine line ++ more) :
    (readHead (parseStatusLine peer) (.ofChunks chunks silent)).1 =
        .failed (.upgrade s!"unexpected status line from {peer}: {Text.quoted (content line)}") ∧
      bytesOf (readHead (parseStatusLine peer) (.ofChunks chunks silent)).2.drain.1 = more := by
  obtain ⟨left, hread, hleft⟩ := readHead_ofChunks (parseStatusLine peer) chunks silent
  rw [hbytes, readBytes_statusLine_refused hline hswitch more] at hread hleft
  rw [hread, Source.drain_chunks]
  exact ⟨rfl, hleft⟩

/-- **The decision of an agent.** A request that cannot be written as a head fails with the reason,
and nothing is written or read. Any other is written, exactly; then, whatever bytes come, in
whatever pieces, and whether the channel then ends or falls silent: the upgrade is there exactly if
the bytes begin with the head of an answer whose status line tells the switch of protocols. Any
other status line fails by itself. -/
theorem seekUpgrade_decides (peer : String) (request : UpgradeRequest) (chunks : List ByteArray)
    (silent : Bool) (sink : Sink) :
    let run := seekUpgrade peer request ⟨.ofChunks chunks silent, sink⟩
    (∀ fault, request.head = .error fault →
      run = (.failed fault, ⟨.ofChunks chunks silent, sink⟩)) ∧
    ∀ text, request.head = .ok text → sink.TakesAll →
      SeekDecision peer text (bytesOf (joined chunks)) silent sink run.1 run.2 := by
  intro run
  refine ⟨fun fault hhead => ?_, fun text hhead htakes => ?_⟩
  · simp only [run, seekUpgrade, hhead]
  · obtain ⟨after, hsend, hwrote⟩ := htakes.send text.toUTF8
    have hrun : run = _ := seekUpgrade_eq hhead hsend peer (.ofChunks chunks silent)
    rw [hrun]
    refine ⟨hwrote, ?_, fun line more hline hswitch heq => ?_, fun hnone => ?_⟩
    · rcases readHead_cases (parseStatusLine_eq_ok_iff peer) chunks silent with
        ⟨⟨⟩, headers, rest, hbegins, hread⟩ | ⟨hnone, hread⟩
      · rw [hread]
        exact iff_of_true rfl ⟨headers, rest, hbegins⟩
      · refine iff_of_false ?_ ?_
        · rcases hread with ⟨-, hread⟩ | ⟨-, fault, hread⟩
          · rw [hread]
            rintro ⟨⟩
          · rw [hread]
            rintro ⟨⟩
        · rintro ⟨headers, rest, hbegins⟩
          exact hnone () headers rest hbegins
    · obtain ⟨hread, hleft⟩ := readHead_statusLine_refused hline hswitch heq
      exact ⟨by rw [hread]; rfl, hleft⟩
    · rcases readHead_cases (parseStatusLine_eq_ok_iff peer) chunks silent with
        ⟨⟨⟩, headers, rest, hbegins, -⟩ | ⟨-, ⟨hwaits, hread⟩ | ⟨hends, fault, hread⟩⟩
      · exact absurd hbegins (hnone headers rest)
      · exact .inl ⟨hwaits, by rw [hread]; rfl⟩
      · exact .inr ⟨hends, fault, by rw [hread]; rfl⟩

/-- A status line that does not tell the switch fails while the peer is silent. -/
theorem seekUpgrade_decides_at_status :
    let peer := "backup.local:80"
    let request : UpgradeRequest := ⟨"h", "/", []⟩
    let line := "HTTP/1.1 404 Not Found\r"
    let chunks := ["HTTP/1.1 404 Not".toUTF8, " Found\r\n".toUTF8]
    Sink.TakesAll {} ∧ (∃ text, request.head = .ok text) ∧
      (seekUpgrade peer request ⟨.ofChunks chunks true, {}⟩).1 = .failed (.upgrade
        s!"unexpected status line from {peer}: {Text.quoted (content line)}") := by
  intro peer request line chunks
  have htakes : Sink.TakesAll {} := ⟨rfl, fun _ => nofun, fun _ => rfl⟩
  have hhead : request.head =
      .ok "GET / HTTP/1.1\r\nHost: h\r\nUpgrade: tcp\r\nConnection: Upgrade\r\n\r\n" := by
    decide +kernel
  have hswitch : ¬ IsSwitchLine (content line) () := by
    rw [← parseStatusLine_eq_ok_iff peer]
    decide
  have hdecision := (seekUpgrade_decides peer request chunks true {}).2 _ hhead htakes
  exact ⟨htakes, ⟨_, hhead⟩,
    (hdecision.refused line [] ⟨by decide, by decide⟩ hswitch (by decide +kernel)).1⟩

end Connection

end Switchboard
