import Mathlib.Data.List.Forall2
import Mathlib.Data.List.TakeWhile
import Switchboard.Proofs.Handshake.Heads

/-!
# The form of a head

Which bytes are a head, said without a reader: a first line, at most so many header lines with a
colon in each, and a blank line, where every line is text, ends with a line feed and is no longer
than a line may be (`BeginsWithHead`). A beginning of bytes that are one is `Unfinished` as long as
nothing in it is wrong.

`readBytes_eq_done_iff` and `readBytes_eq_more_iff` show that a reader is done with exactly the
bytes that begin with a head, and asks for more exactly where they are unfinished. All other bytes
it refuses. Both follow the lines: bytes go on with a line feed in time, or with too many bytes
without one, or they end (`line_cases`).
-/

namespace Switchboard

namespace Text

variable {mark : Char} {cs before after : List Char}

theorem fields_eq_some_iff :
    fields mark cs = some (before, after) ↔ cs = before ++ mark :: after ∧ mark ∉ before := by
  refine ⟨fun h => ?_, fun ⟨hcs, hmark⟩ => hcs ▸ fields_append hmark after⟩
  induction cs generalizing before with
  | nil => cases h
  | cons c cs ih =>
    by_cases hc : c = mark
    · rw [fields, if_pos hc] at h
      cases h
      exact ⟨by rw [hc, List.nil_append], List.not_mem_nil⟩
    · rw [fields, if_neg hc] at h
      obtain ⟨⟨front, rest⟩, hfields, heq⟩ := Option.map_eq_some_iff.1 h
      cases heq
      obtain ⟨rfl, hmark⟩ := ih hfields
      exact ⟨rfl, List.not_mem_cons_of_ne_of_not_mem (fun heq => hc heq.symm) hmark⟩

end Text

/-! ## Lines -/

/-- Whether a text can be a line of a head: there is no line feed in it, and with one behind it it
is no longer than a line may be. -/
structure IsHeadLine (line : String) : Prop where
  single : '\n' ∉ line.toList
  short : (line ++ "\n").utf8ByteSize ≤ maxLine

def sentLine (line : String) : List UInt8 :=
  bytesOf (line ++ "\n").toUTF8

def sentLines (lines : List String) : List UInt8 :=
  lines.flatMap sentLine

/-- What a line says: all of it but the carriage returns at its end. -/
def content (line : String) : String :=
  String.ofList (Text.dropWhileEnd isLineEnd line.toList)

/-- Whether a line is blank: there is nothing in it but its end. -/
def IsBlankLine (line : String) : Prop :=
  ∀ c ∈ line.toList, c = '\r'

/-- Whether a line gives a header: the name stands before the first colon and the value behind it,
each with or without blanks around it. -/
def GivesHeader (line : String) (header : String × String) : Prop :=
  ∃ name value, (content line).toList = name ++ ':' :: value ∧ ':' ∉ name ∧
    header = readAs (String.ofList name, String.ofList value)

theorem sentLine_eq (line : String) : sentLine line = bytesOf line.toUTF8 ++ [0x0A] := by
  have happ : (line ++ "\n").toUTF8 = line.toUTF8 ++ "\n".toUTF8 := String.toByteArray_append
  rw [sentLine, happ, bytesOf_append]
  rfl

theorem sentLines_cons (line : String) (lines : List String) :
    sentLines (line :: lines) = sentLine line ++ sentLines lines :=
  List.flatMap_cons

theorem length_sentLine (line : String) : (sentLine line).length = (line ++ "\n").utf8ByteSize :=
  length_bytesOf _

theorem lineFeed_not_mem {line : String} (h : '\n' ∉ line.toList) :
    (0x0A : UInt8) ∉ bytesOf line.toUTF8 :=
  fun hm => h (Utf8.lineFeed_mem_toUTF8.1 hm)

theorem content_eq_empty_iff {line : String} (h : '\n' ∉ line.toList) :
    content line = "" ↔ IsBlankLine line := by
  have hend : ∀ c ∈ line.toList, isLineEnd c = true ↔ c = '\r' := by
    intro c hc
    have hne : c ≠ '\n' := fun heq => h (heq ▸ hc)
    simp [isLineEnd, hne]
  rw [content, ← String.toList_inj, String.toList_ofList, String.toList_empty, Text.dropWhileEnd,
    List.reverse_eq_nil_iff, List.dropWhile_eq_nil_iff]
  exact ⟨fun hall c hc => (hend c hc).1 (hall c (List.mem_reverse.2 hc)),
    fun hblank c hc => (hend c (List.mem_reverse.1 hc)).2 (hblank c (List.mem_reverse.1 hc))⟩

theorem parseHeader_eq_ok_iff {line : String} {header : String × String} :
    parseHeader (content line) = .ok header ↔ GivesHeader line header := by
  unfold parseHeader GivesHeader
  cases hfields : Text.fields ':' (content line).toList with
  | none =>
    refine ⟨fun h => (by cases h), ?_⟩
    rintro ⟨name, value, hline, hcolon, -⟩
    rw [hline, Text.fields_append hcolon] at hfields
    cases hfields
  | some parts =>
    obtain ⟨name, value⟩ := parts
    have hread : readAs (String.ofList name, String.ofList value) =
        (String.ofList (Text.trim name), String.ofList (Text.trim value)) := by
      simp only [readAs, trimmed, String.toList_ofList]
    constructor
    · intro h
      obtain ⟨hline, hcolon⟩ := Text.fields_eq_some_iff.1 hfields
      cases h
      exact ⟨name, value, hline, hcolon, hread.symm⟩
    · rintro ⟨name', value', hline, hcolon, rfl⟩
      rw [hline, Text.fields_append hcolon] at hfields
      cases hfields
      exact congrArg Except.ok hread.symm

theorem GivesHeader.content_ne {line : String} {header : String × String}
    (h : GivesHeader line header) : content line ≠ "" := by
  obtain ⟨name, value, hline, -, -⟩ := h
  intro hempty
  rw [hempty] at hline
  simp at hline

/-! ## Closing a line -/

theorem closeLine_sentLine (line : String) :
    closeLine (line ++ "\n").toUTF8 = .ok (content line) := by
  have hlist : (line ++ "\n").toList = line.toList ++ ['\n'] := String.toList_append
  have hlast : (line ++ "\n").toList.getLast? = some '\n' := by
    rw [hlist, List.getLast?_concat]
  have hdrop : Text.dropWhileEnd isLineEnd (line ++ "\n").toList =
      Text.dropWhileEnd isLineEnd line.toList := by
    rw [Text.dropWhileEnd, hlist, List.reverse_append]
    rfl
  simp only [closeLine, lineText, Utf8.decode_toUTF8]
  change (if (line ++ "\n").toList.getLast? = some '\n' then _ else _) = _
  rw [if_pos hlast, hdrop]
  rfl

theorem eq_sentLine_of_closeLine {front : List UInt8} (hfeed : (0x0A : UInt8) ∉ front)
    {text : String} (h : closeLine (front ++ [0x0A]).toByteArray = .ok text) :
    ∃ line : String, '\n' ∉ line.toList ∧ front ++ [0x0A] = sentLine line := by
  have hbytes : bytesOf (front ++ [0x0A]).toByteArray = front ++ [0x0A] := by simp [bytesOf]
  simp only [closeLine, lineText] at h
  cases hdecode : Utf8.decode (front ++ [0x0A]).toByteArray with
  | error flaw =>
    rw [hdecode] at h
    cases h
  | ok whole =>
    rw [hdecode] at h
    change (if whole.toList.getLast? = some '\n' then _ else _) = _ at h
    by_cases hlast : whole.toList.getLast? = some '\n'
    · obtain ⟨chars, hchars⟩ := List.getLast?_eq_some_iff.1 hlast
      have hwhole : whole = String.ofList chars ++ "\n" := by
        rw [← String.toList_inj, String.toList_append, String.toList_ofList, hchars]
        rfl
      have hsent : front ++ [0x0A] = sentLine (String.ofList chars) := by
        rw [sentLine, ← hwhole, Utf8.toUTF8_of_decode hdecode, hbytes]
      refine ⟨String.ofList chars, fun hm => hfeed ?_, hsent⟩
      rw [sentLine_eq] at hsent
      rw [List.append_cancel_right hsent]
      exact Utf8.lineFeed_mem_toUTF8.2 hm
    · rw [if_neg hlast] at h
      cases h

/-! ## Heads -/

section Heads

variable {α : Type}

/-- Some lines give some headers, if `read` headers stand before them. -/
structure AreHeaderLines (read : Nat) (lines : List String) (headers : Headers) : Prop where
  few : read + lines.length ≤ maxHeaders
  fits : ∀ line ∈ lines, IsHeadLine line
  gives : List.Forall₂ GivesHeader lines headers

/-- A head without its blank line: a first line from which `first` is read, and header lines.
`IsFirst` says what is read from first lines. -/
inductive IsOpening (IsFirst : String → α → Prop) : List UInt8 → α → Headers → Prop
  | intro {line : String} {lines : List String} {first : α} {headers : Headers}
      (hline : IsHeadLine line) (hfirst : IsFirst (content line) first)
      (hlines : AreHeaderLines 0 lines headers) :
      IsOpening IsFirst (sentLine line ++ sentLines lines) first headers

inductive IsHead (IsFirst : String → α → Prop) : List UInt8 → α → Headers → Prop
  | intro {opening : List UInt8} {blank : String} {first : α} {headers : Headers}
      (hopening : IsOpening IsFirst opening first headers) (hline : IsHeadLine blank)
      (hblank : IsBlankLine blank) :
      IsHead IsFirst (opening ++ sentLine blank) first headers

def BeginsWithHead (IsFirst : String → α → Prop) (bytes : List UInt8) (first : α)
    (headers : Headers) (rest : List UInt8) : Prop :=
  ∃ head, IsHead IsFirst head first headers ∧ bytes = head ++ rest

/-- Nothing is wrong with some bytes, but they are not yet a head: whole lines as a head has them
before its blank line, and a beginning of a line. -/
def Unfinished (IsFirst : String → α → Prop) (bytes : List UInt8) : Prop :=
  ∃ before tail, (before = [] ∨ ∃ first headers, IsOpening IsFirst before first headers) ∧
    bytes = before ++ tail ∧ (0x0A : UInt8) ∉ tail ∧ tail.length < maxLine

end Heads

namespace HeadReader

variable {α : Type} {parse : String → Except Fault α} {IsFirst : String → α → Prop}
  {reader : HeadReader α} {first : α} {headers : Headers} {bytes rest : List UInt8}

/-- How bytes go on from the begin of a line: with a line feed in time, with too many bytes and no
line feed, or not far enough. -/
theorem line_cases (bytes : List UInt8) :
    (∃ front rest, bytes = front ++ [0x0A] ++ rest ∧ (0x0A : UInt8) ∉ front ∧
      front.length < maxLine) ∨
    (∃ front rest, bytes = front ++ rest ∧ (0x0A : UInt8) ∉ front ∧ front.length = maxLine) ∨
    ((0x0A : UInt8) ∉ bytes ∧ bytes.length < maxLine) := by
  by_cases hfeed : (0x0A : UInt8) ∈ bytes.take maxLine
  · obtain ⟨front, later, htake, hfront⟩ := List.eq_append_cons_of_mem hfeed
    have hlength := congrArg List.length htake
    simp only [List.length_take, List.length_append, List.length_cons] at hlength
    refine .inl ⟨front, later ++ bytes.drop maxLine, ?_, hfront, by omega⟩
    calc bytes = bytes.take maxLine ++ bytes.drop maxLine := (List.take_append_drop ..).symm
      _ = front ++ [0x0A] ++ (later ++ bytes.drop maxLine) := by rw [htake]; simp
  · by_cases hlong : maxLine ≤ bytes.length
    · exact .inr (.inl ⟨bytes.take maxLine, bytes.drop maxLine, (List.take_append_drop ..).symm,
        hfeed, by rw [List.length_take]; omega⟩)
    · rw [List.take_of_length_le (by omega)] at hfeed
      exact .inr (.inr ⟨hfeed, by omega⟩)

theorem readBytes_sentLine {line : String} (h : IsHeadLine line)
    (hline : reader.line = ByteArray.empty) :
    readBytes parse (sentLine line) reader = (reader.takeLine parse (content line), []) := by
  have hlength := length_sentLine line
  have hshort := h.short
  rw [sentLine_eq, List.length_append, List.length_singleton] at hlength
  have hwhole : (bytesOf line.toUTF8 ++ [0x0A]).toByteArray = (line ++ "\n").toUTF8 := by
    apply bytesOf_inj
    rw [← sentLine_eq, sentLine]
    simp [bytesOf]
  rw [sentLine_eq, readBytes_lineFeed (lineFeed_not_mem h.single) (by omega) reader hline, hwhole,
    closeLine_sentLine]

theorem readBytes_noLine {front : List UInt8} (hfeed : (0x0A : UInt8) ∉ front)
    (hsize : front.length < maxLine) (hline : reader.line = ByteArray.empty)
    (hnone : ∀ line, IsHeadLine line → front ++ [0x0A] ≠ sentLine line) :
    ∃ fault, readBytes parse (front ++ [0x0A]) reader = (.failed fault, []) := by
  rw [readBytes_lineFeed hfeed hsize reader hline]
  cases hclose : closeLine (front ++ [0x0A]).toByteArray with
  | error fault => exact ⟨fault, rfl⟩
  | ok text =>
    obtain ⟨line, hsingle, hsent⟩ := eq_sentLine_of_closeLine hfeed hclose
    refine absurd hsent (hnone line ⟨hsingle, ?_⟩)
    rw [← length_sentLine, ← hsent, List.length_append, List.length_singleton]
    omega

theorem takeLine_blank (hfirst : reader.first = some first) {line : String}
    (hempty : content line = "") :
    reader.takeLine parse (content line) = .done first reader.headers.reverse := by
  rw [hempty, takeLine_empty hfirst]

/-- A line that is not blank is taken as the header that it gives, if there is room for it. -/
theorem takeLine_content (hfirst : reader.first = some first) {line : String}
    (hne : content line ≠ "") :
    reader.takeLine parse (content line) =
      if maxHeaders ≤ reader.headers.length then
        .failed (.upgrade s!"more than {maxHeaders} header lines")
      else
        match parseHeader (content line) with
        | .ok header => .more ⟨some first, header :: reader.headers, ByteArray.empty⟩
        | .error fault => .failed fault := by
  have hempty : ¬ (content line).isEmpty = true := fun h => hne (String.isEmpty_iff.1 h)
  unfold takeLine
  rw [hfirst]
  exact if_neg hempty

/-! ## Reading what has the form of a head -/

theorem readBytes_areHeaderLines {lines : List String}
    (h : AreHeaderLines reader.headers.length lines headers) (hfirst : reader.first = some first)
    (hline : reader.line = ByteArray.empty) :
    readBytes parse (sentLines lines) reader =
      (.more ⟨some first, headers.reverse ++ reader.headers, ByteArray.empty⟩, []) := by
  obtain ⟨hfew, hlines, hgives⟩ := h
  induction hgives generalizing reader with
  | nil =>
    obtain ⟨readerFirst, readerHeaders, readerLine⟩ := reader
    cases hfirst
    cases hline
    rfl
  | @cons line header lines headers hgive hgives ih =>
    rw [List.length_cons] at hfew
    have htake : reader.takeLine parse (content line) =
        .more ⟨some first, header :: reader.headers, ByteArray.empty⟩ := by
      rw [takeLine_content hfirst hgive.content_ne, if_neg (by omega),
        parseHeader_eq_ok_iff.2 hgive]
    have hread : readBytes parse (sentLine line) reader = _ :=
      readBytes_sentLine (hlines line List.mem_cons_self) hline
    rw [htake] at hread
    rw [sentLines_cons, readBytes_append_more _ hread,
      @ih ⟨some first, header :: reader.headers, ByteArray.empty⟩ rfl rfl
        (by rw [List.length_cons]; omega) fun l hl => hlines l (List.mem_cons_of_mem _ hl),
      List.reverse_cons, List.append_assoc, List.singleton_append]

theorem readBytes_isOpening (hparse : ∀ line first, parse line = .ok first ↔ IsFirst line first)
    (h : IsOpening IsFirst bytes first headers) :
    readBytes parse bytes {} = (.more ⟨some first, headers.reverse, ByteArray.empty⟩, []) := by
  obtain ⟨hline, hfirst, hlines⟩ := h
  have hread : readBytes parse (sentLine _) {} = _ := readBytes_sentLine hline rfl
  rw [takeLine_first, (hparse _ _).2 hfirst] at hread
  have hheaders : readBytes parse (sentLines _) ⟨some first, [], ByteArray.empty⟩ = _ :=
    readBytes_areHeaderLines hlines rfl rfl
  rw [readBytes_append_more _ hread, hheaders, List.append_nil]

theorem readBytes_isHead (hparse : ∀ line first, parse line = .ok first ↔ IsFirst line first)
    (h : IsHead IsFirst bytes first headers) :
    readBytes parse bytes {} = (.done first headers, []) := by
  obtain ⟨hopening, hline, hblank⟩ := h
  rw [readBytes_append_more _ (readBytes_isOpening hparse hopening), readBytes_sentLine hline rfl,
    takeLine_blank rfl ((content_eq_empty_iff hline.single).2 hblank), List.reverse_reverse]

theorem readBytes_unfinished (hparse : ∀ line first, parse line = .ok first ↔ IsFirst line first)
    (h : Unfinished IsFirst bytes) : ∃ between, readBytes parse bytes {} = (.more between, []) := by
  obtain ⟨before, tail, hbefore, rfl, hfeed, hsize⟩ := h
  have hinside : ∀ reader : HeadReader α, reader.line = ByteArray.empty →
      ∃ between, readBytes parse tail reader = (.more between, []) := fun reader hline =>
    ⟨_, readBytes_inside parse tail reader hfeed (by rw [hline, ByteArray.size_empty]; omega)⟩
  rcases hbefore with rfl | ⟨first, headers, hopening⟩
  · exact hinside {} rfl
  · rw [readBytes_append_more _ (readBytes_isOpening hparse hopening)]
    exact hinside _ rfl

/-! ## The form of what is read -/

/-- What becomes of bytes from the begin of a header line on: header lines and a blank line, header
lines and a beginning of a line, or something that is refused. By induction on the bytes, line by
line. -/
theorem readBytes_fromLine (bytes : List UInt8) (reader : HeadReader α)
    (hfirst : reader.first = some first) (hline : reader.line = ByteArray.empty)
    (hcount : reader.headers.length ≤ maxHeaders) :
    (∃ lines headers blank rest, AreHeaderLines reader.headers.length lines headers ∧
      IsHeadLine blank ∧ IsBlankLine blank ∧ bytes = sentLines lines ++ sentLine blank ++ rest) ∨
    (∃ lines headers tail, AreHeaderLines reader.headers.length lines headers ∧
      bytes = sentLines lines ++ tail ∧ (0x0A : UInt8) ∉ tail ∧ tail.length < maxLine) ∨
    ∃ fault rest, readBytes parse bytes reader = (.failed fault, rest) := by
  have hnone : AreHeaderLines reader.headers.length [] [] := ⟨hcount, by simp, .nil⟩
  induction hk : bytes.length using Nat.strongRecOn generalizing bytes reader with
  | ind k ih =>
    rcases line_cases bytes with ⟨front, rest, rfl, hfeed, hsize⟩ | ⟨front, rest, rfl, hfeed, hsize⟩
      | ⟨hfeed, hsize⟩
    · by_cases hsent : ∃ line, IsHeadLine line ∧ front ++ [0x0A] = sentLine line
      · obtain ⟨line, hhead, hsent⟩ := hsent
        rw [hsent] at hk ⊢
        have hread : readBytes parse (sentLine line) reader = _ := readBytes_sentLine hhead hline
        by_cases hempty : content line = ""
        · exact .inl ⟨[], [], line, rest, hnone, hhead,
            (content_eq_empty_iff hhead.single).1 hempty, rfl⟩
        · rw [takeLine_content hfirst hempty] at hread
          by_cases hmany : maxHeaders ≤ reader.headers.length
          · rw [if_pos hmany] at hread
            exact .inr (.inr ⟨_, _, readBytes_append_over rest hread rfl⟩)
          · rw [if_neg hmany] at hread
            cases hparsed : parseHeader (content line) with
            | error fault =>
              rw [hparsed] at hread
              exact .inr (.inr ⟨_, _, readBytes_append_over rest hread rfl⟩)
            | ok header =>
              rw [hparsed] at hread
              rw [readBytes_append_more rest hread]
              have hgives := parseHeader_eq_ok_iff.1 hparsed
              -- The line stands before whatever lines the rest has.
              have hmore : ∀ {lines headers},
                  AreHeaderLines (header :: reader.headers).length lines headers →
                  AreHeaderLines reader.headers.length (line :: lines) (header :: headers) := by
                rintro lines headers ⟨hfew, hlines, hall⟩
                refine ⟨?_, fun l hl => ?_, .cons hgives hall⟩
                · simp only [List.length_cons] at hfew ⊢
                  omega
                · rcases List.mem_cons.1 hl with rfl | hl
                  · exact hhead
                  · exact hlines l hl
              have hshorter : rest.length < k := by
                rw [← hk, List.length_append, ← hsent, List.length_append, List.length_singleton]
                omega
              have hroom : (header :: reader.headers).length ≤ maxHeaders := by
                rw [List.length_cons]
                omega
              rcases ih rest.length hshorter rest
                ⟨some first, header :: reader.headers, ByteArray.empty⟩ rfl rfl hroom
                ⟨hroom, by simp, .nil⟩ rfl with
                ⟨lines, headers, blank, later, hare, hhead, hblank, rfl⟩ |
                ⟨lines, headers, tail, hare, rfl, htail⟩ | hfail
              · exact .inl ⟨line :: lines, header :: headers, blank, later, hmore hare, hhead,
                  hblank, by rw [sentLines_cons]; simp only [List.append_assoc]⟩
              · exact .inr (.inl ⟨line :: lines, header :: headers, tail, hmore hare,
                  by rw [sentLines_cons, List.append_assoc], htail⟩)
              · exact .inr (.inr hfail)
      · obtain ⟨fault, hfail⟩ : ∃ fault,
            readBytes parse (front ++ [0x0A]) reader = (.failed fault, []) :=
          readBytes_noLine hfeed hsize hline fun line hhead heq => hsent ⟨line, hhead, heq⟩
        exact .inr (.inr ⟨fault, _, readBytes_append_over rest hfail rfl⟩)
    · obtain ⟨fault, hfail⟩ := readBytes_full parse hfeed hsize reader hline
      exact .inr (.inr ⟨fault, _, readBytes_append_over rest hfail rfl⟩)
    · exact .inr (.inl ⟨[], [], bytes, hnone, rfl, hfeed, hsize⟩)

/-- What becomes of some bytes: they begin with a head, or are unfinished, or are refused. -/
theorem readBytes_cases (hparse : ∀ line first, parse line = .ok first ↔ IsFirst line first)
    (bytes : List UInt8) :
    (∃ first headers rest, BeginsWithHead IsFirst bytes first headers rest) ∨
    Unfinished IsFirst bytes ∨
    ∃ fault rest, readBytes parse bytes {} = (.failed fault, rest) := by
  rcases line_cases bytes with ⟨front, rest, rfl, hfeed, hsize⟩ | ⟨front, rest, rfl, hfeed, hsize⟩
    | ⟨hfeed, hsize⟩
  · by_cases hsent : ∃ line, IsHeadLine line ∧ front ++ [0x0A] = sentLine line
    · obtain ⟨line, hhead, hsent⟩ := hsent
      have hread : readBytes parse (sentLine line) {} = _ := readBytes_sentLine hhead rfl
      rw [takeLine_first] at hread
      rw [hsent]
      cases hparsed : parse (content line) with
      | error fault =>
        rw [hparsed] at hread
        exact .inr (.inr ⟨_, _, readBytes_append_over rest hread rfl⟩)
      | ok first =>
        rw [hparsed] at hread
        have hfirst := (hparse _ _).1 hparsed
        rw [readBytes_append_more rest hread]
        rcases readBytes_fromLine rest ⟨some first, [], ByteArray.empty⟩ rfl rfl (Nat.zero_le _)
          with ⟨lines, headers, blank, later, hare, hline, hblank, rfl⟩ |
            ⟨lines, headers, tail, hare, rfl, htail⟩ | hfail
        · refine .inl ⟨first, headers, later, _, ⟨⟨hhead, hfirst, hare⟩, hline, hblank⟩, ?_⟩
          simp only [List.append_assoc]
        · refine .inr (.inl ⟨_, tail, .inr ⟨first, headers, ⟨hhead, hfirst, hare⟩⟩, ?_, htail⟩)
          rw [List.append_assoc]
        · exact .inr (.inr hfail)
    · obtain ⟨fault, hfail⟩ : ∃ fault,
          readBytes parse (front ++ [0x0A]) {} = (.failed fault, []) :=
        readBytes_noLine hfeed hsize rfl fun line hhead heq => hsent ⟨line, hhead, heq⟩
      exact .inr (.inr ⟨fault, _, readBytes_append_over rest hfail rfl⟩)
  · obtain ⟨fault, hfail⟩ := readBytes_full parse hfeed hsize {} rfl
    exact .inr (.inr ⟨fault, _, readBytes_append_over rest hfail rfl⟩)
  · exact .inr (.inl ⟨[], bytes, .inl rfl, rfl, hfeed, hsize⟩)

/-- **A reader is done with exactly the bytes that begin with a head**, and leaves what stands
behind it. -/
theorem readBytes_eq_done_iff (hparse : ∀ line first, parse line = .ok first ↔ IsFirst line first) :
    readBytes parse bytes {} = (.done first headers, rest) ↔
      BeginsWithHead IsFirst bytes first headers rest := by
  have hforward : ∀ {first headers rest}, BeginsWithHead IsFirst bytes first headers rest →
      readBytes parse bytes {} = (.done first headers, rest) := by
    rintro first headers rest ⟨head, hhead, rfl⟩
    exact readBytes_append_over rest (readBytes_isHead hparse hhead) rfl
  refine ⟨fun h => ?_, hforward⟩
  rcases readBytes_cases hparse bytes with
    ⟨first', headers', rest', hbegins⟩ | hmore | ⟨_, _, hfail⟩
  · have hdone := hforward hbegins
    rw [h] at hdone
    cases hdone
    exact hbegins
  · obtain ⟨between, hmore⟩ := readBytes_unfinished hparse hmore
    rw [h] at hmore
    cases hmore
  · rw [h] at hfail
    cases hfail

/-- **A reader asks for more exactly where its bytes are unfinished.** -/
theorem readBytes_eq_more_iff
    (hparse : ∀ line first, parse line = .ok first ↔ IsFirst line first) :
    (∃ between, readBytes parse bytes {} = (.more between, [])) ↔ Unfinished IsFirst bytes := by
  refine ⟨fun ⟨between, h⟩ => ?_, readBytes_unfinished hparse⟩
  rcases readBytes_cases hparse bytes with ⟨first, headers, rest, hbegins⟩ | hmore | ⟨_, _, hfail⟩
  · rw [(readBytes_eq_done_iff hparse).2 hbegins] at h
    cases h
  · exact hmore
  · rw [h] at hfail
    cases hfail

end HeadReader

end Switchboard
