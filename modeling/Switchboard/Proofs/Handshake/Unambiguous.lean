import Switchboard.Proofs.Handshake.Heads

/-!
# A head can be taken apart in one way

A head is text, and its reader finds the fields again by the ends of its lines and by the marks
inside a line. What a caller has put into a field must not add to either. `head_eq_ok_iff` says
which requests have a head at all: those of which no field breaks out of its line (`Contained`). The
head of such a request, cut wherever a line ends, is its lines and nothing else
(`cutLines_join`); and a line gives back the fields that it was made of (`headerLine_inj`), so that
no other request has the same head.
-/

namespace Switchboard

/-! ## Cutting at the ends of lines -/

namespace Text

/-- Cut a text wherever a line feed follows a carriage return; `piece` holds what stands since the
last cut, last character first. -/
def cutFrom (piece : List Char) : List Char → List (List Char)
  | [] => [piece.reverse]
  | '\r' :: '\n' :: cs => piece.reverse :: cutFrom [] cs
  | c :: cs => cutFrom (c :: piece) cs

/-- The pieces of a text between the ends of its lines; the last one stands behind the last end. -/
def cutLines (text : String) : List String :=
  (cutFrom [] text.toList).map String.ofList

theorem cutFrom_cons {c : Char} (hc : c ≠ '\r') (piece cs : List Char) :
    cutFrom piece (c :: cs) = cutFrom (c :: piece) cs := by
  rw [cutFrom.eq_3]
  intro tail hcr
  exact absurd hcr hc

/-- A text without a carriage return is not cut before its end. -/
theorem cutFrom_line {line : List Char} (hline : ∀ c ∈ line, c ≠ '\r')
    (piece rest : List Char) :
    cutFrom piece (line ++ '\r' :: '\n' :: rest) = (piece.reverse ++ line) :: cutFrom [] rest := by
  induction line generalizing piece with
  | nil => simp [cutFrom]
  | cons c line ih =>
    rw [List.cons_append, cutFrom_cons (hline c List.mem_cons_self),
      ih fun d hd => hline d (List.mem_cons_of_mem _ hd)]
    simp

end Text

theorem not_mem_of_isLine {line : String} (h : IsLine line) :
    '\r' ∉ line.toList ∧ '\n' ∉ line.toList := by
  constructor
  · intro hc
    exact absurd (h '\r' hc) (by decide)
  · intro hc
    exact absurd (h '\n' hc) (by decide)

theorem cutLines_withEnd {line : String} (h : IsLine line) (rest : String) :
    Text.cutLines (withEnd line ++ rest) = line :: Text.cutLines rest := by
  have hline : ∀ c ∈ line.toList, c ≠ '\r' := by
    intro c hc hcr
    exact (not_mem_of_isLine h).1 (hcr ▸ hc)
  have htext : (withEnd line ++ rest).toList = line.toList ++ '\r' :: '\n' :: rest.toList := by
    rw [String.toList_append, toList_withEnd, List.append_assoc]
    rfl
  unfold Text.cutLines
  rw [htext, Text.cutFrom_line hline]
  simp

/-- **Lines that were written one after the other are cut where they end**, and nothing stands
behind the last of them. -/
theorem cutLines_join {lines : List String} (h : ∀ line ∈ lines, IsLine line) :
    Text.cutLines (String.join (lines.map withEnd)) = lines ++ [""] := by
  induction lines with
  | nil => rfl
  | cons line lines ih =>
    rw [List.map_cons, String.join_cons, cutLines_withEnd (h line List.mem_cons_self),
      ih fun l hl => h l (List.mem_cons_of_mem _ hl), List.cons_append]

/-! ## Taking a line apart -/

/-- A header line is the line of one header only: its first colon ends the name. -/
theorem headerLine_inj {header other : String × String} (h : ':' ∉ header.1.toList)
    (hother : ':' ∉ other.1.toList) (hline : headerLine header = headerLine other) :
    header = other := by
  have hcut := congrArg (fun line : String => Text.fields ':' line.toList) hline
  simp only [toList_headerLine, Text.fields_append h, Text.fields_append hother,
    Option.some.injEq, Prod.mk.injEq, List.cons.injEq, true_and] at hcut
  exact Prod.ext (String.toList_inj.1 hcut.1) (String.toList_inj.1 hcut.2)

theorem headerLines_inj {headers others : Headers} (h : ∀ header ∈ headers, IsHeader header)
    (hothers : ∀ header ∈ others, IsHeader header)
    (hlines : headers.map headerLine = others.map headerLine) : headers = others := by
  induction headers generalizing others with
  | nil =>
    rw [List.map_nil] at hlines
    exact (List.map_eq_nil_iff.1 hlines.symm).symm
  | cons header headers ih =>
    cases others with
    | nil => cases hlines
    | cons other others =>
      rw [List.map_cons, List.map_cons, List.cons.injEq] at hlines
      have hfirst : header = other :=
        headerLine_inj (h header List.mem_cons_self).name (hothers other List.mem_cons_self).name
          hlines.1
      have hrest : headers = others :=
        ih (fun l hl => h l (List.mem_cons_of_mem _ hl))
          (fun l hl => hothers l (List.mem_cons_of_mem _ hl)) hlines.2
      rw [hfirst, hrest]

namespace UpgradeRequest

variable {request other : UpgradeRequest} {head : String}

theorem requestLine_inj (h : request.requestLine = other.requestLine) :
    request.path = other.path := by
  have hline : ∀ r : UpgradeRequest, r.requestLine.toList =
      "GET ".toList ++ (r.path.toList ++ " HTTP/1.1".toList) := by
    intro r
    have happ : r.requestLine = "GET " ++ r.path ++ " HTTP/1.1" := rfl
    rw [happ, String.toList_append, String.toList_append, List.append_assoc]
  have hchars := congrArg String.toList h
  rw [hline, hline] at hchars
  exact String.toList_inj.1 (List.append_cancel_right (List.append_cancel_left hchars))

/-! ## Which requests have a head -/

/-- Whether no field of a request breaks out of its line, or out of its part of the line. -/
structure Contained (request : UpgradeRequest) : Prop where
  path : ∀ c ∈ request.path.toList, c ≠ '\r' ∧ c ≠ '\n' ∧ c ≠ ' '
  host : ∀ c ∈ request.host.toList, c ≠ '\r' ∧ c ≠ '\n'
  named : ∀ header ∈ request.headers, header.1 ≠ ""
  name : ∀ header ∈ request.headers, ∀ c ∈ header.1.toList,
    c ≠ '\r' ∧ c ≠ '\n' ∧ c ≠ ':' ∧ c ≠ ' ' ∧ c ≠ '\t'
  value : ∀ header ∈ request.headers, ∀ c ∈ header.2.toList, c ≠ '\r' ∧ c ≠ '\n'

theorem checkField_eq_ok_iff (what : String) {extra : List Char} {field : String} :
    checkField what extra field = .ok () ↔
      ∀ c ∈ field.toList, c ≠ '\r' ∧ c ≠ '\n' ∧ c ∉ extra := by
  have hallowed : ∀ c, isForbidden extra c = false ↔ c ≠ '\r' ∧ c ≠ '\n' ∧ c ∉ extra := by
    intro c
    simp [isForbidden, and_assoc]
  constructor
  · intro h c hc
    exact (hallowed c).1 (not_forbidden_of_checkField h c hc)
  · intro h
    have hnone : field.toList.find? (isForbidden extra) = none := by
      rw [List.find?_eq_none]
      intro c hc
      simp [(hallowed c).2 (h c hc)]
    simp only [checkField, hnone]

theorem checkHeader_eq_ok_iff {header : String × String} :
    checkHeader header = .ok () ↔ header.1 ≠ "" ∧
      (∀ c ∈ header.1.toList, c ≠ '\r' ∧ c ≠ '\n' ∧ c ∉ [':', ' ', '\t']) ∧
      ∀ c ∈ header.2.toList, c ≠ '\r' ∧ c ≠ '\n' ∧ c ∉ ([] : List Char) := by
  obtain ⟨name, value⟩ := header
  rw [← checkField_eq_ok_iff "header name", ← checkField_eq_ok_iff "header value"]
  simp only [checkHeader]
  by_cases hempty : name.isEmpty = true
  · rw [if_pos hempty]
    simp [String.isEmpty_iff.1 hempty]
  · rw [if_neg hempty]
    have hne : name ≠ "" := fun h => hempty (String.isEmpty_iff.2 h)
    constructor
    · intro h
      obtain ⟨⟨⟩, hname, hvalue⟩ := bind_ok h
      exact ⟨hne, hname, hvalue⟩
    · rintro ⟨-, hname, hvalue⟩
      rw [hname]
      exact hvalue

theorem checkHeaders_cons (header : String × String) (headers : Headers) :
    (header :: headers).forM checkHeader =
      checkHeader header >>= fun _ => headers.forM checkHeader :=
  rfl

theorem checkHeaders_eq_ok_iff {headers : Headers} :
    headers.forM checkHeader = .ok () ↔ ∀ header ∈ headers, checkHeader header = .ok () := by
  induction headers with
  | nil => exact iff_of_true rfl (by simp)
  | cons header headers ih =>
    rw [checkHeaders_cons, List.forall_mem_cons, ← ih]
    constructor
    · intro h
      obtain ⟨⟨⟩, hfirst, hrest⟩ := bind_ok h
      exact ⟨hfirst, hrest⟩
    · rintro ⟨hfirst, hrest⟩
      rw [hfirst]
      exact hrest

/-- The check of a request passes exactly if it is contained. -/
theorem check_eq_ok_iff : request.check = .ok () ↔ request.Contained := by
  have hcheck : request.check = .ok () ↔ checkField "path" [' '] request.path = .ok () ∧
      checkField "host" [] request.host = .ok () ∧
      ∀ header ∈ request.headers, checkHeader header = .ok () := by
    rw [← checkHeaders_eq_ok_iff]
    unfold check
    constructor
    · intro h
      obtain ⟨⟨⟩, hpath, hrest⟩ := bind_ok h
      obtain ⟨⟨⟩, hhost, hheaders⟩ := bind_ok hrest
      exact ⟨hpath, hhost, hheaders⟩
    · rintro ⟨hpath, hhost, hheaders⟩
      rw [hpath, hhost]
      exact hheaders
  simp only [hcheck, checkField_eq_ok_iff, checkHeader_eq_ok_iff, List.mem_cons,
    List.not_mem_nil, or_false, not_or, not_false_eq_true, and_true]
  constructor
  · rintro ⟨hpath, hhost, hheaders⟩
    exact ⟨hpath, hhost, fun header hm => (hheaders header hm).1,
      fun header hm => (hheaders header hm).2.1, fun header hm => (hheaders header hm).2.2⟩
  · intro h
    exact ⟨h.path, h.host, fun header hm =>
      ⟨h.named header hm, h.name header hm, h.value header hm⟩⟩

/-- Whether a check can fail in one way only: the request cannot be written. -/
def Refuses (result : Except Fault Unit) : Prop :=
  ∀ fault, result = .error fault → ∃ text, fault = .upgrade text

theorem Refuses.bind {result : Except Fault Unit} {next : Unit → Except Fault Unit}
    (h : Refuses result) (hnext : Refuses (next ())) : Refuses (result >>= next) := by
  cases result with
  | error fault => exact h
  | ok _ => exact hnext

theorem checkField_refuses (what : String) (extra : List Char) (field : String) :
    Refuses (checkField what extra field) := by
  intro fault h
  unfold checkField at h
  split at h <;> cases h
  exact ⟨_, rfl⟩

theorem checkHeader_refuses (header : String × String) : Refuses (checkHeader header) := by
  obtain ⟨name, value⟩ := header
  simp only [checkHeader]
  split
  · intro fault h
    cases h
    exact ⟨_, rfl⟩
  · exact (checkField_refuses _ _ _).bind (checkField_refuses _ _ _)

theorem check_refuses (request : UpgradeRequest) : Refuses request.check := by
  have hheaders : ∀ headers : Headers, Refuses (headers.forM checkHeader) := by
    intro headers
    induction headers with
    | nil =>
      intro fault h
      cases h
    | cons header headers ih =>
      rw [checkHeaders_cons]
      exact (checkHeader_refuses header).bind ih
  exact (checkField_refuses _ _ _).bind ((checkField_refuses _ _ _).bind (hheaders _))

theorem head_eq_ok_iff :
    request.head = .ok head ↔
      request.Contained ∧ head = String.join (request.lines.map withEnd) := by
  rw [← check_eq_ok_iff]
  constructor
  · intro h
    obtain ⟨⟨⟩, hcheck, hhead⟩ := bind_ok h
    cases hhead
    exact ⟨hcheck, rfl⟩
  · rintro ⟨hcheck, rfl⟩
    rw [UpgradeRequest.head, hcheck]
    rfl

theorem head_refused (h : ¬ request.Contained) :
    ∃ text, request.head = .error (.upgrade text) := by
  unfold UpgradeRequest.head
  cases hcheck : request.check with
  | ok _ => exact absurd (check_eq_ok_iff.1 hcheck) h
  | error fault =>
    obtain ⟨text, rfl⟩ := check_refuses request fault hcheck
    exact ⟨text, rfl⟩

/-! ## Heads -/

theorem Contained.isLine (h : request.Contained) : ∀ line ∈ request.lines, IsLine line := by
  obtain ⟨hfirst, hheaders⟩ := parts_of_check (check_eq_ok_iff.2 h)
  intro line hm
  simp only [lines_eq, List.mem_cons, List.mem_append, List.mem_map, List.not_mem_nil,
    or_false] at hm
  rcases hm with rfl | ⟨header, hheader, rfl⟩ | rfl
  · exact hfirst
  · exact (hheaders header hheader).line
  · exact isLine_of_any "" (by decide)

theorem cutLines_head (h : request.head = .ok head) :
    Text.cutLines head = request.lines ++ [""] := by
  obtain ⟨hcontained, rfl⟩ := head_eq_ok_iff.1 h
  exact cutLines_join hcontained.isLine

theorem empty_not_mem (request : UpgradeRequest) :
    "" ∉ request.requestLine :: request.allHeaders.map headerLine := by
  intro hm
  rcases List.mem_cons.1 hm with hfirst | hm
  · have hmem : 'G' ∈ request.requestLine.toList := by
      have happ : request.requestLine = "GET " ++ request.path ++ " HTTP/1.1" := rfl
      simp [happ]
    exact ne_empty_of_mem hmem hfirst.symm
  · obtain ⟨header, -, hline⟩ := List.mem_map.1 hm
    exact headerLine_ne_empty header hline

theorem lines_inj (h : request.Contained) (hother : other.Contained)
    (hlines : request.lines = other.lines) : request = other := by
  have hheaders := (parts_of_check (check_eq_ok_iff.2 h)).2
  have hothers := (parts_of_check (check_eq_ok_iff.2 hother)).2
  rw [lines_eq, lines_eq, List.cons.injEq] at hlines
  have hpath : request.path = other.path := requestLine_inj hlines.1
  have hall : request.allHeaders = other.allHeaders :=
    headerLines_inj hheaders hothers (List.append_cancel_right hlines.2)
  simp only [allHeaders, List.cons_append, List.cons.injEq, Prod.mk.injEq, true_and] at hall
  have hrest : request.headers = other.headers := List.append_cancel_right hall.2
  cases request
  cases other
  simp_all

/-- **A head says one request, line by line.** If a request has a head, then the head is cut at its
ends of lines into the request line, the line of the host, a line for each header, the two lines
that ask for the upgrade and an empty line, which is the only one; there is no other end of a line
in it, nor a part of one; and no other request has that head. A request has a head if none of its
fields breaks out of its line; otherwise it is refused. -/
theorem head_unambiguous (request : UpgradeRequest) :
    (∀ head, request.head = .ok head →
      (∃ lines, Text.cutLines head = lines ++ ["", ""] ∧ "" ∉ lines ∧
        lines = s!"GET {request.path} HTTP/1.1" :: s!"Host: {request.host}" ::
          (request.headers.map (fun header => s!"{header.1}: {header.2}") ++
            ["Upgrade: tcp", "Connection: Upgrade"])) ∧
      (∀ piece ∈ Text.cutLines head, '\r' ∉ piece.toList ∧ '\n' ∉ piece.toList) ∧
      ∀ other : UpgradeRequest, other.head = .ok head → other = request) ∧
    (request.Contained → ∃ head, request.head = .ok head) ∧
    (¬ request.Contained → ∃ text, request.head = .error (.upgrade text)) := by
  refine ⟨fun head h => ?_, fun h => ⟨_, head_eq_ok_iff.2 ⟨h, rfl⟩⟩, head_refused⟩
  obtain ⟨hcontained, -⟩ := head_eq_ok_iff.1 h
  have hcut := cutLines_head h
  refine ⟨⟨request.requestLine :: request.allHeaders.map headerLine, ?_, empty_not_mem request, ?_⟩,
    ?_, ?_⟩
  · rw [hcut, lines_eq]
    simp
  · simp only [allHeaders, List.map_append, List.cons_append, List.map_cons, List.map_nil]
    rfl
  · intro piece hm
    rw [hcut, List.mem_append, List.mem_singleton] at hm
    rcases hm with hm | rfl
    · exact not_mem_of_isLine (hcontained.isLine piece hm)
    · exact ⟨by decide, by decide⟩
  · intro other hother
    obtain ⟨hcontained', -⟩ := head_eq_ok_iff.1 hother
    have hcut' := cutLines_head hother
    rw [hcut] at hcut'
    exact lines_inj hcontained' hcontained (List.append_cancel_right hcut').symm

/-- Colons and blanks in the values, and a header with the name of the line of the host. -/
theorem head_unambiguous_colons :
    let request : UpgradeRequest := ⟨"h", "/a\t?b", [("X-Peer", " nas01\t: 1"), ("Host", ":")]⟩
    let head := "GET /a\t?b HTTP/1.1\r\nHost: h\r\nX-Peer:  nas01\t: 1\r\nHost: :\r\n" ++
      "Upgrade: tcp\r\nConnection: Upgrade\r\n\r\n"
    request.head = .ok head ∧ request.Contained ∧
      Text.cutLines head = ["GET /a\t?b HTTP/1.1", "Host: h", "X-Peer:  nas01\t: 1", "Host: :",
        "Upgrade: tcp", "Connection: Upgrade", "", ""] ∧
      ∀ other : UpgradeRequest, other.head = .ok head → other = request := by
  intro request head
  have hhead : request.head = .ok head := by decide +kernel
  obtain ⟨⟨lines, hcut, -, hlines⟩, -, hother⟩ := (head_unambiguous request).1 head hhead
  exact ⟨hhead, (head_eq_ok_iff.1 hhead).1, by rw [hcut, hlines]; rfl, hother⟩

end UpgradeRequest

end Switchboard
