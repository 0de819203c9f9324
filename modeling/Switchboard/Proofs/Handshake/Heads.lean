import Mathlib.Data.List.Nodup
import Switchboard.Proofs.Handshake.Lines

/-!
# A head says what its request said

What a server reads of the head that an agent wrote. The lines of the head are the request line and
one line for each header, and the server cuts them where the agent put them together: a header line
at its first colon (`parseHeader_headerLine`), the request line at its blanks
(`words_requestLine`). So the headers that are read are the headers that were written, without the
blanks around them, whatever the request says (`readBytes_request`). The path is kept whole if
it is one word, and only then: the agent refuses a path with a space in it, but the server
takes any blank for the end of a word (`parseRequestLine_eq_iff`).
-/

namespace Switchboard

/-! ## Words -/

namespace Text

variable {c : Char} {cs rest word : List Char}

theorem wordsFrom_append (hc : isBlank c = true) (word cs rest : List Char) :
    wordsFrom word (cs ++ c :: rest) = wordsFrom word cs ++ wordsFrom [] rest := by
  induction cs generalizing word with
  | nil =>
    simp only [List.nil_append, wordsFrom, hc, if_true]
    by_cases hword : word.isEmpty = true
    · rw [if_pos hword, if_pos hword, List.nil_append]
    · rw [if_neg hword, if_neg hword, List.singleton_append]
  | cons d cs ih =>
    simp only [List.cons_append, wordsFrom]
    by_cases hd : isBlank d = true
    · by_cases hword : word.isEmpty = true
      · simp only [hd, hword, if_true]
        exact ih []
      · simp only [hd, hword, if_true, Bool.false_eq_true, if_false, List.cons_append]
        rw [ih []]
    · simp only [hd, Bool.false_eq_true, if_false]
      exact ih (d :: word)

theorem words_append (hc : isBlank c = true) (cs rest : List Char) :
    words (cs ++ c :: rest) = words cs ++ words rest :=
  wordsFrom_append hc [] cs rest

/-- Whether a text is one word: there is something, and no blank is in it. -/
def IsWord (cs : List Char) : Prop :=
  cs ≠ [] ∧ ∀ c ∈ cs, isBlank c = false

instance (cs : List Char) : Decidable (IsWord cs) :=
  @instDecidableAnd _ _ _ (List.decidableBAll _ cs)

theorem wordsFrom_of_no_blank (word : List Char) (h : ∀ c ∈ cs, isBlank c = false) :
    wordsFrom word cs = if (word.reverse ++ cs).isEmpty then [] else [word.reverse ++ cs] := by
  induction cs generalizing word with
  | nil => simp [wordsFrom]
  | cons d cs ih =>
    have hd : isBlank d = false := h d List.mem_cons_self
    simp only [wordsFrom, hd, Bool.false_eq_true, if_false]
    rw [ih (d :: word) fun e he => h e (List.mem_cons_of_mem _ he)]
    simp

theorem words_of_isWord (h : IsWord cs) : words cs = [cs] := by
  rw [words, wordsFrom_of_no_blank [] h.2]
  simp [h.1]

theorem isWord_of_mem_wordsFrom (hword : ∀ c ∈ word, isBlank c = false) {w : List Char}
    (h : w ∈ wordsFrom word cs) : IsWord w := by
  have hdone : ∀ {word : List Char}, (∀ c ∈ word, isBlank c = false) → word.isEmpty = false →
      IsWord word.reverse := by
    intro word hword hne
    refine ⟨?_, fun c hc => hword c (List.mem_reverse.1 hc)⟩
    intro hnil
    rw [List.reverse_eq_nil_iff.1 hnil] at hne
    cases hne
  induction cs generalizing word with
  | nil =>
    simp only [wordsFrom] at h
    cases hempty : word.isEmpty with
    | true => rw [hempty] at h; cases h
    | false =>
      rw [hempty] at h
      rw [List.mem_singleton.1 h]
      exact hdone hword hempty
  | cons d cs ih =>
    simp only [wordsFrom] at h
    cases hd : isBlank d with
    | true =>
      have hnil : ∀ c ∈ ([] : List Char), isBlank c = false := by intro c hc; cases hc
      cases hempty : word.isEmpty with
      | true => rw [hd, hempty] at h; exact ih hnil h
      | false =>
        rw [hd, hempty] at h
        rcases List.mem_cons.1 h with rfl | hlater
        · exact hdone hword hempty
        · exact ih hnil hlater
    | false =>
      rw [hd] at h
      refine ih ?_ h
      intro c hc
      rcases List.mem_cons.1 hc with rfl | hc
      · exact hd
      · exact hword c hc

theorem isWord_of_mem_words {w : List Char} (h : w ∈ words cs) : IsWord w :=
  isWord_of_mem_wordsFrom (fun c hc => by cases hc) h

/-! ## Fields -/

theorem fields_append {mark : Char} (h : mark ∉ cs) (rest : List Char) :
    fields mark (cs ++ mark :: rest) = some (cs, rest) := by
  induction cs with
  | nil => simp [fields]
  | cons d cs ih =>
    have hd : d ≠ mark := fun heq => h (heq ▸ List.mem_cons_self)
    simp only [List.cons_append, fields, if_neg hd]
    rw [ih fun hm => h (List.mem_cons_of_mem _ hm)]
    rfl

theorem trim_cons (h : isBlank c = true) (cs : List Char) : trim (c :: cs) = trim cs := by
  rw [trim, trim, List.dropWhile_cons_of_pos h]

end Text

/-! ## Header lines -/

def headerLine (header : String × String) : String :=
  s!"{header.1}: {header.2}"

def trimmed (text : String) : String :=
  String.ofList (Text.trim text.toList)

/-- A header as it is read: its name and its value without the blanks around them. -/
def readAs (header : String × String) : String × String :=
  (trimmed header.1, trimmed header.2)

theorem toList_headerLine (header : String × String) :
    (headerLine header).toList = header.1.toList ++ ':' :: ' ' :: header.2.toList := by
  have happ : headerLine header = header.1 ++ ": " ++ header.2 := rfl
  rw [happ, String.toList_append, String.toList_append, List.append_assoc]
  rfl

/-- A header line is cut where it was put together, if there is no colon in the name. -/
theorem parseHeader_headerLine {header : String × String} (h : ':' ∉ header.1.toList) :
    parseHeader (headerLine header) = .ok (readAs header) := by
  rw [parseHeader, toList_headerLine, Text.fields_append h]
  simp only [Text.trim_cons (c := ' ') (by decide)]
  rfl

theorem headerLine_ne_empty (header : String × String) : headerLine header ≠ "" := by
  refine UpgradeRequest.ne_empty_of_mem (c := ':') ?_
  rw [toList_headerLine]
  exact List.mem_append_right _ List.mem_cons_self

/-- Whether a header can stand in a line of its own, with the colon after its name. -/
structure IsHeader (header : String × String) : Prop where
  line : IsLine (headerLine header)
  name : ':' ∉ header.1.toList

theorem isHeader_of_any (name value : String) (hname : name.toList.any isLineEnd = false)
    (hcolon : ':' ∉ name.toList) (hvalue : IsLine value) : IsHeader (name, value) where
  line := ((isLine_of_any name hname).append (isLine_of_any ": " (by decide))).append hvalue
  name := hcolon

namespace HeadReader

variable {α : Type} {parse : String → Except Fault α}

theorem takeLine_headerLine {header : String × String} (h : IsHeader header)
    {reader : HeadReader α} {first : α} (hfirst : reader.first = some first) :
    reader.takeLine parse (headerLine header) =
      if maxHeaders ≤ reader.headers.length then
        .failed (.upgrade s!"more than {maxHeaders} header lines")
      else .more ⟨some first, readAs header :: reader.headers, ByteArray.empty⟩ := by
  have hempty : ¬ (headerLine header).isEmpty = true :=
    fun he => headerLine_ne_empty header (String.isEmpty_iff.1 he)
  unfold takeLine
  rw [hfirst]
  simp only [if_neg hempty, parseHeader_headerLine h.name]

/-- Whether some headers keep within what a reader takes that has read `read` of them. -/
def Fits (read : Nat) (headers : Headers) : Prop :=
  read + headers.length ≤ maxHeaders ∧
    ∀ header ∈ headers, (withEnd (headerLine header)).toUTF8.size ≤ maxLine

/-- **Header lines are read as the headers that they were written from**, or there are too many or
one is too long. By induction on the headers, with the reader at the begin of a line. -/
theorem readBytes_headerLines (headers : Headers) (hheaders : ∀ header ∈ headers, IsHeader header)
    (reader : HeadReader α) (hline : reader.line = ByteArray.empty) {first : α}
    (hfirst : reader.first = some first) :
    readBytes parse (linesBytes (headers.map headerLine ++ [""])) reader =
        (.done first (reader.headers.reverse ++ headers.map readAs), []) ∨
      (∃ fault rest, readBytes parse (linesBytes (headers.map headerLine ++ [""])) reader =
        (.failed fault, rest)) ∧ ¬ Fits reader.headers.length headers := by
  induction headers generalizing reader with
  | nil =>
    left
    have hempty : IsLine "" := by intro c hc; cases hc
    rw [List.map_nil, List.nil_append, linesBytes_cons, linesBytes_nil, List.append_nil,
      readBytes_withEnd hempty reader hline (by decide), takeLine_empty hfirst, List.map_nil,
      List.append_nil]
  | cons header headers ih =>
    have hheader : IsHeader header := hheaders header List.mem_cons_self
    rw [List.map_cons, List.cons_append, linesBytes_cons]
    by_cases hsize : (withEnd (headerLine header)).toUTF8.size ≤ maxLine
    · have hread : readBytes parse (bytesOf (withEnd (headerLine header)).toUTF8) reader =
          (reader.takeLine parse (headerLine header), []) :=
        readBytes_withEnd hheader.line reader hline hsize
      rw [takeLine_headerLine hheader hfirst] at hread
      by_cases hmany : maxHeaders ≤ reader.headers.length
      · rw [if_pos hmany] at hread
        rw [readBytes_append_over _ hread rfl]
        refine .inr ⟨⟨_, _, rfl⟩, fun hfits => ?_⟩
        have hcount := hfits.1
        rw [List.length_cons] at hcount
        omega
      · rw [if_neg hmany] at hread
        rw [readBytes_append_more _ hread]
        rcases ih (fun h hm => hheaders h (List.mem_cons_of_mem _ hm))
          ⟨some first, readAs header :: reader.headers, ByteArray.empty⟩ rfl rfl with hdone | hfail
        · left
          rw [hdone, List.reverse_cons, List.append_assoc, List.singleton_append, List.map_cons]
        · refine .inr ⟨hfail.1, fun hfits => hfail.2 ⟨?_, fun h hm => ?_⟩⟩
          · have hcount := hfits.1
            simp only [List.length_cons] at hcount ⊢
            omega
          · exact hfits.2 h (List.mem_cons_of_mem _ hm)
    · obtain ⟨fault, rest, hread⟩ : ∃ fault rest, readBytes parse
          (bytesOf (withEnd (headerLine header)).toUTF8) reader = (.failed fault, rest) :=
        readBytes_tooLong hheader.line reader hline (Nat.not_le.1 hsize)
      rw [readBytes_append_over _ hread rfl]
      exact .inr ⟨⟨_, _, rfl⟩, fun hfits => hsize (hfits.2 header List.mem_cons_self)⟩

end HeadReader

/-! ## Requests -/

namespace UpgradeRequest

variable {request : UpgradeRequest} {head : String}

def requestLine (request : UpgradeRequest) : String :=
  s!"GET {request.path} HTTP/1.1"

/-- All headers of a request, in the order in which they are sent. -/
def allHeaders (request : UpgradeRequest) : Headers :=
  ("Host", request.host) :: request.headers ++ [("Upgrade", "tcp"), ("Connection", "Upgrade")]

theorem lines_eq (request : UpgradeRequest) :
    request.lines = request.requestLine :: (request.allHeaders.map headerLine ++ [""]) := by
  simp only [lines, requestLine, allHeaders, List.map_append, List.map_cons, List.map_nil,
    List.cons_append, List.nil_append, List.append_assoc]
  rfl

theorem not_forbidden_of_checkField {what : String} {extra : List Char} {field : String}
    (h : checkField what extra field = .ok ()) :
    ∀ c ∈ field.toList, isForbidden extra c = false := by
  unfold checkField at h
  split at h
  · cases h
  · rename_i hnone
    intro c hc
    exact Bool.eq_false_iff.2 (List.find?_eq_none.1 hnone c hc)

theorem isHeader_of_checkHeader {header : String × String} (h : checkHeader header = .ok ()) :
    IsHeader header := by
  obtain ⟨name, value⟩ := header
  obtain ⟨hname, hvalue⟩ := isLine_of_checkHeader h
  refine ⟨(hname.append (isLine_of_any ": " (by decide))).append hvalue, fun hcolon => ?_⟩
  simp only [checkHeader] at h
  by_cases hempty : name.isEmpty = true
  · rw [if_pos hempty] at h
    cases h
  · rw [if_neg hempty] at h
    obtain ⟨⟨⟩, hfield, -⟩ := bind_ok h
    have hforbidden := not_forbidden_of_checkField hfield ':' hcolon
    revert hforbidden
    decide

theorem isHeader_of_checkHeaders {headers : Headers} (h : headers.forM checkHeader = .ok ()) :
    ∀ header ∈ headers, IsHeader header := by
  induction headers with
  | nil => intro header hm; cases hm
  | cons header headers ih =>
    have hcons : (do checkHeader header; headers.forM checkHeader) = .ok () := h
    obtain ⟨⟨⟩, hfirst, hrest⟩ := bind_ok hcons
    intro other hm
    rcases List.mem_cons.1 hm with rfl | hm
    · exact isHeader_of_checkHeader hfirst
    · exact ih hrest other hm

theorem parts_of_check (h : request.check = .ok ()) :
    IsLine request.requestLine ∧ ∀ header ∈ request.allHeaders, IsHeader header := by
  have hcheck : (do
      checkField "path" [' '] request.path
      checkField "host" [] request.host
      request.headers.forM checkHeader) = .ok () := h
  obtain ⟨⟨⟩, hpath, hcheck⟩ := bind_ok hcheck
  obtain ⟨⟨⟩, hhost, hheaders⟩ := bind_ok hcheck
  constructor
  · exact ((isLine_of_any "GET " (by decide)).append (isLine_of_checkField hpath)).append
      (isLine_of_any " HTTP/1.1" (by decide))
  · intro header hm
    simp only [allHeaders, List.cons_append, List.mem_cons, List.mem_append, List.not_mem_nil,
      or_false] at hm
    rcases hm with rfl | hm | rfl | rfl
    · exact isHeader_of_any "Host" _ (by decide) (by decide) (isLine_of_checkField hhost)
    · exact isHeader_of_checkHeaders hheaders header hm
    · exact isHeader_of_any "Upgrade" _ (by decide) (by decide) (isLine_of_any _ (by decide))
    · exact isHeader_of_any "Connection" _ (by decide) (by decide) (isLine_of_any _ (by decide))

/-- Whether the head of a request keeps within the limits of a server. -/
def Fits (request : UpgradeRequest) : Prop :=
  request.headers.length ≤ 61 ∧
    ∀ line ∈ request.lines, (line ++ "\r\n").utf8ByteSize ≤ maxLine

instance (request : UpgradeRequest) : Decidable request.Fits :=
  inferInstanceAs (Decidable (_ ∧ _))

theorem Fits.line (h : request.Fits) :
    (withEnd request.requestLine).toUTF8.size ≤ maxLine :=
  h.2 _ (by rw [lines_eq]; exact List.mem_cons_self)

theorem Fits.headers (h : request.Fits) : HeadReader.Fits 0 request.allHeaders := by
  constructor
  · have hcount := h.1
    simp only [allHeaders, List.length_append, List.length_cons, List.length_nil, maxHeaders]
    omega
  · intro header hm
    refine h.2 _ ?_
    rw [lines_eq]
    exact List.mem_cons_of_mem _ (List.mem_append_left _ (List.mem_map_of_mem hm))

/-- **The head of a request is read as the headers that were written**, after what its first line
gives; or it is refused there, or does not keep within the limits. -/
theorem readBytes_request {α : Type} (parse : String → Except Fault α)
    (h : request.head = .ok head) :
    (∃ first, parse request.requestLine = .ok first ∧
      HeadReader.readBytes parse (bytesOf head.toUTF8) {} =
        (.done first (request.allHeaders.map readAs), [])) ∨
    (∃ fault rest, HeadReader.readBytes parse (bytesOf head.toUTF8) {} = (.failed fault, rest)) ∧
      ((∃ fault, parse request.requestLine = .error fault) ∨ ¬ request.Fits) := by
  obtain ⟨⟨⟩, hcheck, hhead⟩ := bind_ok h
  obtain ⟨hline, hheaders⟩ := parts_of_check hcheck
  have hbytes : bytesOf head.toUTF8 = HeadReader.linesBytes
      (request.requestLine :: (request.allHeaders.map headerLine ++ [""])) := by
    rw [← lines_eq]
    cases hhead
    rfl
  rw [hbytes, HeadReader.linesBytes_cons]
  by_cases hsize : (withEnd request.requestLine).toUTF8.size ≤ maxLine
  · have hread : HeadReader.readBytes parse (bytesOf (withEnd request.requestLine).toUTF8) {} =
        (HeadReader.takeLine parse {} request.requestLine, []) :=
      HeadReader.readBytes_withEnd hline {} rfl hsize
    rw [HeadReader.takeLine_first] at hread
    cases hparse : parse request.requestLine with
    | error fault =>
      rw [hparse] at hread
      rw [HeadReader.readBytes_append_over _ hread rfl]
      exact .inr ⟨⟨_, _, rfl⟩, .inl ⟨fault, rfl⟩⟩
    | ok first =>
      rw [hparse] at hread
      rw [HeadReader.readBytes_append_more _ hread]
      refine (HeadReader.readBytes_headerLines request.allHeaders hheaders
        ⟨some first, [], ByteArray.empty⟩ rfl rfl).imp (fun hdone => ⟨first, rfl, hdone⟩)
        fun hfail => ⟨hfail.1, .inr fun hfits => hfail.2 hfits.headers⟩
  · obtain ⟨fault, rest, hread⟩ : ∃ fault rest, HeadReader.readBytes parse
        (bytesOf (withEnd request.requestLine).toUTF8) {} = (.failed fault, rest) :=
      HeadReader.readBytes_tooLong hline {} rfl (Nat.not_le.1 hsize)
    rw [HeadReader.readBytes_append_over _ hread rfl]
    exact .inr ⟨⟨_, _, rfl⟩, .inr fun hfits => hsize hfits.line⟩

/-- If a head is read at all, the headers are those that were written. -/
theorem headers_of_done {α : Type} {parse : String → Except Fault α} {first : α}
    {headers : Headers} {rest : List UInt8} (h : request.head = .ok head)
    (hdone : HeadReader.readBytes parse (bytesOf head.toUTF8) {} = (.done first headers, rest)) :
    parse request.requestLine = .ok first ∧ headers = request.allHeaders.map readAs := by
  rcases readBytes_request parse h with ⟨found, hparse, hread⟩ | ⟨⟨fault, rest', hread⟩, -⟩
  · rw [hread] at hdone
    cases hdone
    exact ⟨hparse, rfl⟩
  · rw [hread] at hdone
    cases hdone

/-! ## The request line -/

/-- The request line is cut into the method, the words of the path and the protocol. -/
theorem words_requestLine (request : UpgradeRequest) :
    Text.words request.requestLine.toList =
      "GET".toList :: (Text.words request.path.toList ++ ["HTTP/1.1".toList]) := by
  have hline : request.requestLine.toList =
      "GET".toList ++ ' ' :: (request.path.toList ++ ' ' :: "HTTP/1.1".toList) := by
    have happ : request.requestLine = "GET " ++ request.path ++ " HTTP/1.1" := rfl
    rw [happ, String.toList_append, String.toList_append, List.append_assoc]
    rfl
  have hspace : Text.isBlank ' ' = true := by decide
  have hget : Text.words "GET".toList = ["GET".toList] := by decide
  have hversion : Text.words "HTTP/1.1".toList = ["HTTP/1.1".toList] := by decide
  rw [hline, Text.words_append hspace, Text.words_append hspace, hget, hversion]
  rfl

/-- The method is what it was, and the path that is read is a word of the path that was written. -/
theorem parseRequestLine_sound {method path : String}
    (h : parseRequestLine request.requestLine = .ok (method, path)) :
    method = "GET" ∧ path.toList ∈ Text.words request.path.toList := by
  rw [parseRequestLine, words_requestLine] at h
  cases hwords : Text.words request.path.toList with
  | nil => rw [hwords] at h; cases h
  | cons word words =>
    rw [hwords] at h
    have hfound : method = "GET" ∧ path = String.ofList word := by
      cases words with
      | nil =>
        simp only [List.cons_append, List.nil_append, List.map_cons, List.map_nil] at h
        rw [if_pos (by decide)] at h
        cases h
        exact ⟨rfl, rfl⟩
      | cons version words =>
        simp only [List.cons_append, List.map_cons] at h
        split at h
        · cases h
          exact ⟨rfl, rfl⟩
        · cases h
    refine ⟨hfound.1, ?_⟩
    rw [hfound.2, String.toList_ofList]
    exact List.mem_cons_self

theorem parseRequestLine_of_isWord (h : Text.IsWord request.path.toList) :
    parseRequestLine request.requestLine = .ok ("GET", request.path) := by
  rw [parseRequestLine, words_requestLine, Text.words_of_isWord h]
  simp only [List.cons_append, List.nil_append, List.map_cons, List.map_nil, String.ofList_toList]
  exact if_pos (by decide)

/-- The path is read as it was written if it is one word, and only then. -/
theorem parseRequestLine_eq_iff {method : String} :
    parseRequestLine request.requestLine = .ok (method, request.path) ↔
      method = "GET" ∧ Text.IsWord request.path.toList := by
  constructor
  · intro h
    obtain ⟨hmethod, hmem⟩ := parseRequestLine_sound h
    exact ⟨hmethod, Text.isWord_of_mem_words hmem⟩
  · rintro ⟨rfl, hword⟩
    exact parseRequestLine_of_isWord hword

/-! ## All of it -/

/-- **What a server reads of a head stands where the request had it.** However the head comes in
pieces, and whatever comes after it: the head of a request that keeps within the limits is read as
the method, the path and the headers of the request, in order and without the blanks around them, if
the path is one word, and only then, and no byte after the head is touched. If the path is not one
word, a head that is read at all still has the method and the headers of the request, and one word
of its path. -/
theorem head_in_place (h : request.head = .ok head) (hfits : request.Fits)
    (chunks : List ByteArray) (later : ByteArray) (silent : Bool)
    (hchunks : joined chunks = head.toUTF8 ++ later) :
    ((readHead parseRequestLine ⟨chunks.map .bytes, silent⟩).1 =
        .done ("GET", request.path) (request.allHeaders.map readAs) ↔
      Text.IsWord request.path.toList) ∧
    (∀ method path headers, (readHead parseRequestLine ⟨chunks.map .bytes, silent⟩).1 =
        .done (method, path) headers →
      method = "GET" ∧ path.toList ∈ Text.words request.path.toList ∧
        headers = request.allHeaders.map readAs ∧
        ∃ left : List ByteArray, joined left = later ∧
          (readHead parseRequestLine ⟨chunks.map .bytes, silent⟩).2 =
            ⟨left.map .bytes, silent⟩) := by
  obtain ⟨left, hresult, hleft⟩ := readHeadFrom_chunks parseRequestLine silent chunks {}
  have hbytes : bytesOf (joined chunks) = bytesOf head.toUTF8 ++ bytesOf later := by
    rw [hchunks, bytesOf_append]
  rw [hbytes] at hresult hleft
  change readHead parseRequestLine ⟨chunks.map .bytes, silent⟩ = _ at hresult
  rw [hresult]
  rcases readBytes_request parseRequestLine h with
    ⟨⟨method, path⟩, hparse, hread⟩ | ⟨⟨fault, rest, hread⟩, hwhy⟩
  · rw [HeadReader.readBytes_append_over _ hread rfl] at hleft ⊢
    obtain ⟨hmethod, hmem⟩ := parseRequestLine_sound hparse
    constructor
    · have hkept : parseRequestLine request.requestLine = .ok ("GET", request.path) ↔
          "GET" = "GET" ∧ Text.IsWord request.path.toList := parseRequestLine_eq_iff
      rw [hparse] at hkept
      simpa [HeadProgress.atEnd] using hkept
    · intro method' path' headers' hdone
      cases hdone
      exact ⟨hmethod, hmem, rfl, left, bytesOf_inj hleft, rfl⟩
  · rw [HeadReader.readBytes_append_over _ hread rfl]
    constructor
    · refine ⟨fun hdone => (by cases hdone), fun hword => ?_⟩
      rcases hwhy with ⟨fault', hrefused⟩ | hlimits
      · rw [parseRequestLine_of_isWord hword] at hrefused
        cases hrefused
      · exact absurd hfits hlimits
    · intro method path headers hdone
      cases hdone

/-- A request with blanks around a value, in two pieces, of which the second goes on after the
head. -/
theorem head_in_place_in_pieces :
    let request : UpgradeRequest := ⟨"h", "/a", [("X-Peer", " nas01\t"), ("x-peer", ":")]⟩
    let head := "GET /a HTTP/1.1\r\nHost: h\r\nX-Peer:  nas01\t\r\nx-peer: :\r\n" ++
      "Upgrade: tcp\r\nConnection: Upgrade\r\n\r\n"
    let chunks := [head.toUTF8.extract 0 9, head.toUTF8.extract 9 head.toUTF8.size ++ ⟨#[0, 1]⟩]
    request.head = .ok head ∧ request.Fits ∧ joined chunks = head.toUTF8 ++ ⟨#[0, 1]⟩ ∧
      Text.IsWord request.path.toList ∧
      (readHead parseRequestLine ⟨chunks.map .bytes, true⟩).1 = .done ("GET", "/a")
        [("Host", "h"), ("X-Peer", "nas01"), ("x-peer", ":"), ("Upgrade", "tcp"),
          ("Connection", "Upgrade")] := by
  intro request head chunks
  have hhead : request.head = .ok head := by decide +kernel
  have hfits : request.Fits := by decide +kernel
  have hchunks : joined chunks = head.toUTF8 ++ ⟨#[0, 1]⟩ := by
    rw [joined_cons, joined_cons, joined_nil, ByteArray.append_empty, ← ByteArray.append_assoc,
      Bytes.extract_append_rest]
  have hword : Text.IsWord request.path.toList := by decide +kernel
  have hheaders : request.allHeaders.map readAs = [("Host", "h"), ("X-Peer", "nas01"),
      ("x-peer", ":"), ("Upgrade", "tcp"), ("Connection", "Upgrade")] := by decide +kernel
  refine ⟨hhead, hfits, hchunks, hword, ?_⟩
  rw [← hheaders]
  exact (head_in_place hhead hfits chunks _ true hchunks).1.2 hword

/-- A path with a blank other than the space is accepted, and is not read as it was written: here
the server is asked for `/a`. -/
theorem path_cut_at_tab :
    let request : UpgradeRequest := ⟨"h", "/a\tHTTP/1.1", []⟩
    let head := "GET /a\tHTTP/1.1 HTTP/1.1\r\nHost: h\r\nUpgrade: tcp\r\nConnection: Upgrade\r\n\r\n"
    request.head = .ok head ∧ request.Fits ∧
      (readHead parseRequestLine ⟨[.bytes head.toUTF8], false⟩).1 = .done ("GET", "/a")
        [("Host", "h"), ("Upgrade", "tcp"), ("Connection", "Upgrade")] := by
  intro request head
  have hhead : request.head = .ok head := by decide +kernel
  have hfits : request.Fits := by decide +kernel
  have hparse : parseRequestLine request.requestLine = .ok ("GET", "/a") := by decide +kernel
  have hheaders : request.allHeaders.map readAs =
      [("Host", "h"), ("Upgrade", "tcp"), ("Connection", "Upgrade")] := by decide +kernel
  refine ⟨hhead, hfits, ?_⟩
  obtain ⟨left, hresult, -⟩ := readHeadFrom_chunks parseRequestLine false [head.toUTF8] {}
  rw [joined_cons, joined_nil, ByteArray.append_empty] at hresult
  change readHead parseRequestLine ⟨[.bytes head.toUTF8], false⟩ = _ at hresult
  rcases readBytes_request parseRequestLine hhead with
    ⟨first, hfirst, hread⟩ | ⟨-, ⟨fault, hrefused⟩ | hlimits⟩
  · rw [hparse] at hfirst
    cases hfirst
    rw [hresult, hread, hheaders]
    rfl
  · rw [hparse] at hrefused
    cases hrefused
  · exact absurd hfits hlimits

end UpgradeRequest

end Switchboard
