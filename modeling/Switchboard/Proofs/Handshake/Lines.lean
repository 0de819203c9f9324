import Switchboard.Proofs.Handshake.Reading
import Switchboard.Proofs.Text

/-!
# The lines of a head

A line that was written with its end behind it is taken as that line, unless it is too long, and
then the reading has failed before its end (`readBytes_line`). A head whose fields pass
`UpgradeRequest.check` is lines, of which only the last is empty: so reading it is over
exactly with its last byte, or has failed (`readBytes_head`). The answers of a server are
read the same way.
-/

namespace Switchboard

/-- Whether a text can stand in a line: it has no end of a line in it. -/
def IsLine (line : String) : Prop :=
  ∀ c ∈ line.toList, isLineEnd c = false

theorem isLine_of_any (text : String) (h : text.toList.any isLineEnd = false) : IsLine text :=
  fun c hc => Bool.eq_false_iff.2 (List.any_eq_false.1 h c hc)

def withEnd (line : String) : String :=
  line ++ "\r\n"

theorem toList_withEnd (line : String) : (withEnd line).toList = line.toList ++ ['\r', '\n'] :=
  String.toList_append

theorem IsLine.append {a b : String} (ha : IsLine a) (hb : IsLine b) : IsLine (a ++ b) := by
  intro c hc
  rw [String.toList_append, List.mem_append] at hc
  exact hc.elim (ha c) (hb c)

theorem IsLine.no_lineFeed {line : String} (h : IsLine line) :
    (0x0A : UInt8) ∉ bytesOf line.toUTF8 := by
  intro hmem
  have hc := h '\n' (Utf8.lineFeed_mem_toUTF8.1 hmem)
  revert hc
  decide

/-! ## The end of a line -/

theorem dropWhileEnd_withEnd {line : String} (h : IsLine line) :
    Text.dropWhileEnd isLineEnd (withEnd line).toList = line.toList := by
  have hback : (line.toList.reverse).dropWhile isLineEnd = line.toList.reverse := by
    cases hl : line.toList.reverse with
    | nil => rfl
    | cons c cs =>
      have hc : c ∈ line.toList := by rw [← List.mem_reverse, hl]; exact List.mem_cons_self
      rw [List.dropWhile_cons_of_neg (by rw [h c hc]; decide)]
  rw [Text.dropWhileEnd, toList_withEnd, List.reverse_append]
  have hend : (['\r', '\n'].reverse ++ line.toList.reverse).dropWhile isLineEnd =
      line.toList.reverse.dropWhile isLineEnd := rfl
  rw [hend, hback, List.reverse_reverse]

theorem closeLine_withEnd {line : String} (h : IsLine line) :
    closeLine (withEnd line).toUTF8 = .ok line := by
  have hlast : (withEnd line).toList.getLast? = some '\n' := by
    rw [toList_withEnd]
    simp
  simp only [closeLine, lineText, Utf8.decode_toUTF8]
  change (if (withEnd line).toList.getLast? = some '\n' then _ else _) = _
  rw [if_pos hlast, dropWhileEnd_withEnd h, String.ofList_toList]
  rfl

theorem closeLine_open {line : ByteArray} (h : (0x0A : UInt8) ∉ bytesOf line) :
    ∃ fault, closeLine line = .error fault := by
  simp only [closeLine, lineText]
  cases hd : Utf8.decode line with
  | error flaw => exact ⟨_, rfl⟩
  | ok text =>
    have hne : text.toList.getLast? ≠ some '\n' := by
      intro hl
      rw [← Utf8.toUTF8_of_decode hd] at h
      exact h (Utf8.lineFeed_mem_toUTF8.2 (List.mem_of_getLast? hl))
    exact ⟨lineTooLong, if_neg hne⟩

namespace HeadReader

variable {α : Type} {parse : String → Except Fault α}

/-! ## One line -/

theorem step_inside (parse : String → Except Fault α) (reader : HeadReader α) {b : UInt8}
    (hb : b ≠ 0x0A) (hsize : (reader.line.push b).size < maxLine) :
    reader.step parse b = .more { reader with line := reader.line.push b } := by
  unfold step
  exact if_neg (by simpa only [Bool.or_eq_true, decide_eq_true_eq, hb, false_or, Nat.not_le])

theorem step_last {b : UInt8} {reader : HeadReader α}
    (h : b = 0x0A ∨ maxLine ≤ (reader.line.push b).size) :
    reader.step parse b =
      match closeLine (reader.line.push b) with
      | .ok text => reader.takeLine parse text
      | .error fault => .failed fault := by
  unfold step
  exact if_pos (by simpa only [Bool.or_eq_true, decide_eq_true_eq])

theorem readBytes_singleton (b : UInt8) (reader : HeadReader α) :
    readBytes parse [b] reader = (reader.step parse b, []) := by
  rw [readBytes]
  cases reader.step parse b <;> rfl

theorem readBytes_inside (parse : String → Except Fault α) (bytes : List UInt8)
    (reader : HeadReader α) (hfeed : (0x0A : UInt8) ∉ bytes)
    (hsize : reader.line.size + bytes.length < maxLine) :
    readBytes parse bytes reader =
      (.more { reader with line := reader.line ++ bytes.toByteArray }, []) := by
  induction bytes generalizing reader with
  | nil => simp [readBytes]
  | cons b bytes ih =>
    have hb : b ≠ 0x0A := fun h => hfeed (by rw [h]; exact List.mem_cons_self)
    rw [List.length_cons] at hsize
    have hstep := step_inside parse reader hb
      (by rw [ByteArray.size_push]; omega)
    simp only [readBytes, hstep]
    rw [ih _ (fun h => hfeed (List.mem_cons_of_mem _ h))
      (by simp only [ByteArray.size_push]; omega)]
    have happ : reader.line.push b ++ bytes.toByteArray =
        reader.line ++ (b :: bytes).toByteArray := by
      apply bytesOf_inj
      simp [bytesOf]
    rw [happ]

theorem readBytes_lineFeed {front : List UInt8} (hfeed : (0x0A : UInt8) ∉ front)
    (hsize : front.length < maxLine) (reader : HeadReader α)
    (hline : reader.line = ByteArray.empty) :
    readBytes parse (front ++ [0x0A]) reader =
      (match closeLine (front ++ [0x0A]).toByteArray with
        | .ok text => reader.takeLine parse text
        | .error fault => .failed fault, []) := by
  have hwhole : (ByteArray.empty ++ front.toByteArray).push 0x0A =
      (front ++ [0x0A]).toByteArray := by
    apply bytesOf_inj
    simp [bytesOf]
  rw [readBytes_append_more _ (readBytes_inside parse front reader hfeed
    (by rw [hline, ByteArray.size_empty]; omega)), readBytes_singleton, step_last (.inl rfl)]
  simp only [hline, hwhole]
  rfl

/-- As many bytes as a line may have, and no line feed among them: the last of them is one too
many. -/
theorem readBytes_full (parse : String → Except Fault α) {front : List UInt8}
    (hfeed : (0x0A : UInt8) ∉ front) (hsize : front.length = maxLine) (reader : HeadReader α)
    (hline : reader.line = ByteArray.empty) :
    ∃ fault, readBytes parse front reader = (.failed fault, []) := by
  have hne : front ≠ [] := List.ne_nil_of_length_pos (by rw [hsize]; decide)
  obtain ⟨inner, last, rfl⟩ : ∃ inner last, front = inner ++ [last] :=
    ⟨front.dropLast, front.getLast hne, (List.dropLast_concat_getLast hne).symm⟩
  rw [List.length_append, List.length_singleton] at hsize
  have hinside := readBytes_inside parse inner reader
    (fun hm => hfeed (List.mem_append_left _ hm))
    (by rw [hline, ByteArray.size_empty]; omega)
  have hopen : (0x0A : UInt8) ∉ bytesOf ((ByteArray.empty ++ inner.toByteArray).push last) := by
    simpa [bytesOf] using hfeed
  obtain ⟨fault, hclose⟩ := closeLine_open hopen
  rw [readBytes_append_more _ hinside, readBytes_singleton, step_last]
  · simp only [hline, hclose]
    exact ⟨fault, rfl⟩
  · right
    simp only [hline, ByteArray.size_push, ByteArray.empty_append, List.size_toByteArray]
    omega

/-- The line feed of a line with its end is its last byte, and there is no other. -/
theorem exists_front {line : String} (h : IsLine line) :
    ∃ front, bytesOf (withEnd line).toUTF8 = front ++ [0x0A] ∧ (0x0A : UInt8) ∉ front := by
  have happ : (withEnd line).toUTF8 = line.toUTF8 ++ "\r\n".toUTF8 := String.toByteArray_append
  refine ⟨bytesOf line.toUTF8 ++ [0x0D], ?_, ?_⟩
  · rw [happ, bytesOf_append, List.append_assoc]
    rfl
  · rw [List.mem_append]
    rintro (hmem | hmem)
    · exact h.no_lineFeed hmem
    · revert hmem
      decide

theorem readBytes_withEnd {line : String} (h : IsLine line) (reader : HeadReader α)
    (hline : reader.line = ByteArray.empty) (hsize : (withEnd line).toUTF8.size ≤ maxLine) :
    readBytes parse (bytesOf (withEnd line).toUTF8) reader = (reader.takeLine parse line, []) := by
  obtain ⟨front, hbytes, hfeed⟩ := exists_front h
  have hwhole : (front ++ [0x0A]).toByteArray = (withEnd line).toUTF8 := by
    apply bytesOf_inj
    rw [hbytes]
    simp [bytesOf]
  rw [← length_bytesOf, hbytes, List.length_append, List.length_singleton] at hsize
  rw [hbytes, readBytes_lineFeed hfeed (by omega) reader hline, hwhole, closeLine_withEnd h]

theorem readBytes_tooLong {line : String} (h : IsLine line) (reader : HeadReader α)
    (hline : reader.line = ByteArray.empty) (hsize : maxLine < (withEnd line).toUTF8.size) :
    ∃ fault rest,
      readBytes parse (bytesOf (withEnd line).toUTF8) reader = (.failed fault, rest) := by
  obtain ⟨front, hbytes, hfeed⟩ := exists_front h
  rw [← length_bytesOf, hbytes, List.length_append, List.length_singleton] at hsize
  have hcut : (front.take maxLine).length = maxLine := by
    rw [List.length_take]; omega
  obtain ⟨fault, hfail⟩ :=
    readBytes_full parse (fun hm => hfeed (List.mem_of_mem_take hm)) hcut reader hline
  rw [hbytes, ← List.take_append_drop maxLine front, List.append_assoc]
  exact ⟨fault, _, readBytes_append_over _ hfail rfl⟩

/-- **A line that was written with its end is taken as that line**, unless it is too long: then the
reading has failed before its end. -/
theorem readBytes_line (parse : String → Except Fault α) {line : String} (h : IsLine line)
    (reader : HeadReader α) (hline : reader.line = ByteArray.empty) :
    (∃ fault rest,
      readBytes parse (bytesOf (withEnd line).toUTF8) reader = (.failed fault, rest)) ∨
    readBytes parse (bytesOf (withEnd line).toUTF8) reader = (reader.takeLine parse line, []) := by
  by_cases hsize : (withEnd line).toUTF8.size ≤ maxLine
  · exact .inr (readBytes_withEnd h reader hline hsize)
  · exact .inl (readBytes_tooLong h reader hline (Nat.not_le.1 hsize))

/-! ## All lines of a head -/

def linesBytes (lines : List String) : List UInt8 :=
  bytesOf (String.join (lines.map withEnd)).toUTF8

theorem linesBytes_nil : linesBytes [] = [] := rfl

theorem linesBytes_cons (line : String) (lines : List String) :
    linesBytes (line :: lines) = bytesOf (withEnd line).toUTF8 ++ linesBytes lines := by
  rw [linesBytes, linesBytes, ← bytesOf_append, List.map_cons, String.join_cons]
  exact congrArg bytesOf String.toByteArray_append

/-- How reading some bytes ends that hold all of a head: it fails, or it is done with the last of
them. -/
def Closes (result : HeadProgress α × List UInt8) : Prop :=
  (∃ fault rest, result = (.failed fault, rest)) ∨
    ∃ first headers, result = (.done first headers, [])

theorem takeLine_first (parse : String → Except Fault α) (line : String) :
    takeLine parse {} line =
      match parse line with
      | .ok first => .more ⟨some first, [], ByteArray.empty⟩
      | .error fault => .failed fault :=
  rfl

theorem takeLine_empty {reader : HeadReader α} {first : α} (hfirst : reader.first = some first) :
    reader.takeLine parse "" = .done first reader.headers.reverse := by
  unfold takeLine
  rw [hfirst]
  rfl

theorem takeLine_header (parse : String → Except Fault α) {line : String} {reader : HeadReader α}
    {first : α} (hfirst : reader.first = some first) (hne : line ≠ "") :
    (∃ fault, reader.takeLine parse line = .failed fault) ∨
      ∃ headers, reader.takeLine parse line = .more ⟨some first, headers, ByteArray.empty⟩ := by
  have hempty : ¬ line.isEmpty = true := fun h => hne (String.isEmpty_iff.1 h)
  unfold takeLine
  rw [hfirst]
  simp only [if_neg hempty]
  by_cases hmany : maxHeaders ≤ reader.headers.length
  · rw [if_pos hmany]
    exact .inl ⟨_, rfl⟩
  · rw [if_neg hmany]
    cases parseHeader line with
    | error fault => exact .inl ⟨fault, rfl⟩
    | ok header => exact .inr ⟨_, rfl⟩

/-- By induction on the header lines: each leaves a reader at the begin of a line, or the reading
has failed. -/
theorem readBytes_headers (lines : List String) (hlines : ∀ line ∈ lines, IsLine line ∧ line ≠ "")
    (reader : HeadReader α) (hline : reader.line = ByteArray.empty) {first : α}
    (hfirst : reader.first = some first) :
    Closes (readBytes parse (linesBytes (lines ++ [""])) reader) := by
  induction lines generalizing reader with
  | nil =>
    rw [List.nil_append, linesBytes_cons, linesBytes_nil, List.append_nil]
    have hempty : IsLine "" := by intro c hc; cases hc
    rcases readBytes_line parse hempty reader hline with h | h
    · exact .inl h
    · rw [h, takeLine_empty hfirst]
      exact .inr ⟨first, _, rfl⟩
  | cons line lines ih =>
    obtain ⟨hl, hne⟩ := hlines line List.mem_cons_self
    rw [List.cons_append, linesBytes_cons]
    rcases readBytes_line parse hl reader hline with ⟨fault, rest, h⟩ | h
    · rw [readBytes_append_over _ h rfl]
      exact .inl ⟨fault, _, rfl⟩
    · rcases takeLine_header parse hfirst hne with ⟨fault, ht⟩ | ⟨headers, ht⟩
      · rw [ht] at h
        rw [readBytes_append_over _ h rfl]
        exact .inl ⟨fault, _, rfl⟩
      · rw [ht] at h
        rw [readBytes_append_more _ h]
        exact ih (fun l hl => hlines l (List.mem_cons_of_mem _ hl)) _ rfl rfl

/-- **Reading a head that was written line by line is over exactly with its last byte, or has
failed.** -/
theorem readBytes_head {line : String} (h : IsLine line) {lines : List String}
    (hlines : ∀ line ∈ lines, IsLine line ∧ line ≠ "") :
    Closes (readBytes parse (linesBytes (line :: (lines ++ [""]))) {}) := by
  rw [linesBytes_cons]
  rcases readBytes_line parse h {} rfl with ⟨fault, rest, hr⟩ | hr
  · rw [readBytes_append_over _ hr rfl]
    exact .inl ⟨fault, _, rfl⟩
  · rw [takeLine_first] at hr
    cases hp : parse line with
    | error fault =>
      rw [hp] at hr
      rw [readBytes_append_over _ hr rfl]
      exact .inl ⟨fault, _, rfl⟩
    | ok first =>
      rw [hp] at hr
      rw [readBytes_append_more _ hr]
      exact readBytes_headers lines hlines _ rfl rfl

end HeadReader

/-! ## Requests -/

namespace UpgradeRequest

theorem isLine_of_checkField {what : String} {extra : List Char} {field : String}
    (h : checkField what extra field = .ok ()) : IsLine field := by
  unfold checkField at h
  split at h
  · cases h
  · rename_i hnone
    intro c hc
    have hf := List.find?_eq_none.1 hnone c hc
    simp only [isForbidden, Bool.or_eq_true, decide_eq_true_eq] at hf
    simp only [isLineEnd, Bool.or_eq_false_iff, decide_eq_false_iff_not]
    exact ⟨fun hr => hf (.inl (.inl hr)), fun hn => hf (.inl (.inr hn))⟩

theorem bind_ok {α β : Type} {value : Except Fault α} {next : α → Except Fault β} {result : β}
    (h : value >>= next = .ok result) : ∃ found, value = .ok found ∧ next found = .ok result := by
  cases value with
  | error fault => cases h
  | ok found => exact ⟨found, rfl, h⟩

theorem isLine_of_checkHeader {name value : String} (h : checkHeader (name, value) = .ok ()) :
    IsLine name ∧ IsLine value := by
  simp only [checkHeader] at h
  by_cases hempty : name.isEmpty = true
  · rw [if_pos hempty] at h
    cases h
  · rw [if_neg hempty] at h
    obtain ⟨⟨⟩, hname, hvalue⟩ := bind_ok h
    exact ⟨isLine_of_checkField hname, isLine_of_checkField hvalue⟩

theorem isLine_of_checkHeaders {headers : List (String × String)}
    (h : headers.forM checkHeader = .ok ()) :
    ∀ header ∈ headers, IsLine header.1 ∧ IsLine header.2 := by
  induction headers with
  | nil => intro header hm; cases hm
  | cons header headers ih =>
    have hcons : (do checkHeader header; headers.forM checkHeader) = .ok () := h
    obtain ⟨⟨⟩, hfirst, hrest⟩ := bind_ok hcons
    intro other hm
    rcases List.mem_cons.1 hm with rfl | hm
    · exact isLine_of_checkHeader hfirst
    · exact ih hrest other hm

theorem ne_empty_of_mem {line : String} {c : Char} (h : c ∈ line.toList) : line ≠ "" := by
  rintro rfl
  cases h

/-- The head of a request is a line, header lines of which none is empty, and an empty line. -/
theorem lines_of_check {request : UpgradeRequest} (h : request.check = .ok ()) :
    ∃ line lines, request.lines = line :: (lines ++ [""]) ∧ IsLine line ∧
      ∀ line ∈ lines, IsLine line ∧ line ≠ "" := by
  have hcheck : (do
      checkField "path" [' '] request.path
      checkField "host" [] request.host
      request.headers.forM checkHeader) = .ok () := h
  obtain ⟨⟨⟩, hpath, hcheck⟩ := bind_ok hcheck
  obtain ⟨⟨⟩, hhost, hheaders⟩ := bind_ok hcheck
  refine ⟨s!"GET {request.path} HTTP/1.1",
    s!"Host: {request.host}" :: (request.headers.map (fun header => s!"{header.1}: {header.2}") ++
      ["Upgrade: tcp", "Connection: Upgrade"]), ?_, ?_, ?_⟩
  · simp [lines]
  · exact ((isLine_of_any "GET " (by decide)).append (isLine_of_checkField hpath)).append
      (isLine_of_any " HTTP/1.1" (by decide))
  · intro line hline
    simp only [List.mem_cons, List.mem_append, List.mem_map, List.not_mem_nil, or_false] at hline
    rcases hline with rfl | ⟨⟨name, value⟩, hmem, rfl⟩ | rfl | rfl
    · refine ⟨(isLine_of_any "Host: " (by decide)).append (isLine_of_checkField hhost), ?_⟩
      refine ne_empty_of_mem (c := 'H') ?_
      rw [String.toList_append]
      exact List.mem_append_left _ (by decide)
    · obtain ⟨hname, hvalue⟩ := isLine_of_checkHeaders hheaders _ hmem
      refine ⟨(hname.append (isLine_of_any ": " (by decide))).append hvalue, ?_⟩
      refine ne_empty_of_mem (c := ':') ?_
      rw [String.toList_append, String.toList_append]
      exact List.mem_append_left _ (List.mem_append_right _ (by decide))
    · exact ⟨isLine_of_any _ (by decide), by decide⟩
    · exact ⟨isLine_of_any _ (by decide), by decide⟩

/-- What a server reads of a head ends with the last byte of the head, or fails. -/
theorem readBytes_of_head {α : Type} {parse : String → Except Fault α} {request : UpgradeRequest}
    {head : String} (h : request.head = .ok head) :
    HeadReader.Closes (HeadReader.readBytes parse (bytesOf head.toUTF8) {}) := by
  obtain ⟨⟨⟩, hcheck, hhead⟩ := bind_ok h
  obtain ⟨line, lines, hlines, hline, hall⟩ := lines_of_check hcheck
  have hbytes : bytesOf head.toUTF8 = HeadReader.linesBytes (line :: (lines ++ [""])) := by
    rw [← hlines]
    cases hhead
    rfl
  rw [hbytes]
  exact HeadReader.readBytes_head hline hall

end UpgradeRequest

/-! ## Answers -/

namespace Answer

def line (answer : Answer) : String :=
  s!"HTTP/1.1 {answer.status}"

theorem bytes_eq (answer : Answer) :
    bytesOf answer.bytes = HeadReader.linesBytes [answer.line, ""] := by
  cases answer <;> decide

theorem isLine_line (answer : Answer) : IsLine answer.line :=
  isLine_of_any _ (by cases answer <;> decide)

theorem readBytes_statusLine {α : Type} (parse : String → Except Fault α) (answer : Answer) :
    HeadReader.readBytes parse (bytesOf (withEnd answer.line).toUTF8) {} =
      (HeadReader.takeLine parse {} answer.line, []) :=
  HeadReader.readBytes_withEnd (isLine_line answer) {} rfl (by cases answer <;> decide)

/-- The answer that grants an upgrade is read as such, to its last byte. -/
theorem readBytes_switching (peer : String) :
    HeadReader.readBytes (parseStatusLine peer) (bytesOf switching.bytes) {} =
      (.done () [], []) := by
  have hstatus : parseStatusLine peer switching.line = .ok () := if_pos (by decide)
  have htake : HeadReader.takeLine (parseStatusLine peer) {} switching.line =
      .more ⟨some (), [], ByteArray.empty⟩ := by
    simp only [HeadReader.takeLine, hstatus]
  have hread := readBytes_statusLine (parseStatusLine peer) switching
  rw [htake] at hread
  rw [bytes_eq, HeadReader.linesBytes_cons, HeadReader.readBytes_append_more _ hread,
    HeadReader.linesBytes_cons, HeadReader.linesBytes_nil, List.append_nil,
    HeadReader.readBytes_withEnd (by intro c hc; cases hc) _ rfl (by decide),
    HeadReader.takeLine_empty rfl]
  rfl

theorem readBytes_refusal (peer : String) {answer : Answer} (h : answer ≠ switching) :
    ∃ fault rest, HeadReader.readBytes (parseStatusLine peer) (bytesOf answer.bytes) {} =
      (.failed fault, rest) := by
  obtain ⟨fault, hstatus⟩ : ∃ fault, parseStatusLine peer answer.line = .error fault := by
    refine ⟨_, if_neg ?_⟩
    cases answer with
    | switching => exact absurd rfl h
    | badRequest => decide
    | notFound => decide
  have hread := readBytes_statusLine (parseStatusLine peer) answer
  rw [HeadReader.takeLine] at hread
  simp only [hstatus] at hread
  rw [bytes_eq, HeadReader.linesBytes_cons]
  exact ⟨fault, _, HeadReader.readBytes_append_over _ hread rfl⟩

end Answer

end Switchboard
