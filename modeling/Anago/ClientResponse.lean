import Anago.ClientConf
import Anago.Client
import Anago.Device
import Anago.WireMessages

/-!
# The client's responses

A response is a head of lines and, behind the first empty line, a body. Nothing that is not
UTF-8 and nothing that came in chunks is taken for an answer.
-/

open StdText Utf8Text DecimalText

namespace Client

/-- `MAX_RESPONSE`. -/
def maxResponse : Nat := 1048576

structure Response where
  status : UInt16
  headers : List (String × String)
  body : String
  deriving DecidableEq, Repr

def Response.isSuccess (response : Response) : Bool :=
  200 ≤ response.status.toNat && response.status.toNat < 300

/-- Why there is no response. -/
inductive ClientError where
  /-- Nothing was answered: the host, the socket, TLS or the time. -/
  | lost (detail : String)
  | tooLarge (limit : Nat)
  | malformed (what : String)
  deriving DecidableEq, Repr

/-- What is before and what is behind the first empty line. -/
def headEnd : List UInt8 → Option (List UInt8 × List UInt8)
  | [] => none
  | b :: rest =>
    if [13, 10, 13, 10].isPrefixOf (b :: rest) then some ([], rest.drop 3)
    else (headEnd rest).map fun parts => (b :: parts.1, parts.2)

/-- Lower-cased names and trimmed values. A line without a colon is dropped. -/
def parseHeaders (head : List Char) : List (String × String) :=
  ((lines head).drop 1).filterMap fun line =>
    (Subnet.splitOnce ':' line).map fun header =>
      (String.ofList ((trim header.1).map toAsciiLowercase), String.ofList (trim header.2))

/-- Reads a response off the wire. -/
def parseResponse (bytes : List UInt8) : Except ClientError Response :=
  match headEnd bytes with
  | none => .error (.malformed "no end of headers")
  | some (head, body) =>
    match fromUtf8 head with
    | none => .error (.malformed "headers are not UTF-8")
    | some head =>
      match fromUtf8 body with
      | none => .error (.malformed "the body is not UTF-8")
      | some body =>
        let parts := ((lines head.toList).head?.getD []).splitOn ' '
        if !"HTTP/1.".toList.isPrefixOf (parts.head?.getD []) then .error
          (.malformed "not an HTTP/1.x response")
        else
          match parts[1]?.bind parseU16 with
          | none => .error (.malformed "no status code")
          | some status =>
            let headers := parseHeaders head.toList
            if headers.any fun header => header.1 = "transfer-encoding" then
              .error (.malformed "chunked responses are not supported")
            else .ok ⟨status, headers, body⟩

/-- `parse_response` with the size limit applied. -/
def parseBounded (bytes : List UInt8) : Except ClientError Response :=
  if maxResponse < bytes.length then .error (.tooLarge maxResponse) else parseResponse bytes

/-- Line ends between the lines of a head. -/
def headText (lines : List (List Char)) : List Char := ['\r', '\n'].intercalate lines

/-- The bytes of a response. -/
def responseBytes (lines : List (List Char)) (body : String) : List UInt8 :=
  utf8 (headText lines) ++ [13, 10, 13, 10] ++ asBytes body

/-- A line of a head: not empty, and on one line. -/
def HeadLine (line : List Char) : Prop := line ≠ [] ∧ '\r' ∉ line ∧ '\n' ∉ line

theorem byte_not_mem {c : Char} (ascii : c.toNat < 128) {line : List Char} (h : c ∉ line) :
    c.toUInt8 ∉ utf8 line := by
  induction line with
  | nil => exact List.not_mem_nil
  | cons d line ih =>
    obtain ⟨apart, later⟩ := not_or.mp (List.mem_cons.not.mp h)
    rw [utf8_cons, List.mem_append, not_or]
    refine ⟨fun there => ?_, ih later⟩
    by_cases low : d.toNat < 128
    · rw [encode_ascii low, List.mem_singleton] at there
      have same := congrArg Char.ofUInt8 there
      rw [ofUInt8_toUInt8 ascii, ofUInt8_toUInt8 low] at same
      exact apart same
    · have high := encode_high (Nat.le_of_not_lt low) there
      rw [toUInt8_toNat ascii] at high
      omega

/-- A byte that is no line end is passed. -/
theorem headEnd_cons {b : UInt8} (h : b ≠ 13) (rest : List UInt8) :
    headEnd (b :: rest) = (headEnd rest).map fun parts => (b :: parts.1, parts.2) := by
  rw [headEnd, if_neg]
  intro start
  rw [List.isPrefixOf_cons_cons, Bool.and_eq_true, beq_iff_eq] at start
  exact h start.1.symm

theorem headEnd_append {front : List UInt8} (h : (13 : UInt8) ∉ front) (rest : List UInt8) :
    headEnd (front ++ rest) = (headEnd rest).map fun parts => (front ++ parts.1, parts.2) := by
  induction front with
  | nil =>
    rw [List.nil_append]
    cases headEnd rest with
    | none => rfl
    | some parts => rfl
  | cons b front ih =>
    obtain ⟨here, later⟩ := not_or.mp (List.mem_cons.not.mp h)
    rw [List.cons_append, headEnd_cons (Ne.symm here), ih later]
    cases headEnd rest with
    | none => rfl
    | some parts => rfl

/-- A line end before a line is passed. -/
theorem headEnd_return {b : UInt8} (h : b ≠ 13) (rest : List UInt8) :
    headEnd (13 :: 10 :: b :: rest) = (headEnd (b :: rest)).map fun parts =>
      (13 :: 10 :: parts.1, parts.2) := by
  rw [headEnd, if_neg, headEnd_cons (by decide)]
  · cases headEnd (b :: rest) with
    | none => rfl
    | some parts => rfl
  · intro start
    simp only [List.isPrefixOf_cons_cons, Bool.and_eq_true, beq_iff_eq] at start
    exact h start.2.2.1.symm

theorem headEnd_empty_line (rest : List UInt8) :
    headEnd ([13, 10, 13, 10] ++ rest) = some ([], rest) := rfl

theorem headText_cons (line next : List Char) (more : List (List Char)) :
    headText (line :: next :: more) = line ++ '\r' :: '\n' :: headText (next :: more) := by
  rw [headText, List.intercalate_cons_cons, List.append_assoc]
  rfl

theorem headText_singleton (line : List Char) : headText [line] = line := by
  rw [headText, List.intercalate_singleton]

/-- A head starts with a byte of its first line. -/
theorem utf8_headText_head {lines : List (List Char)} (some' : lines ≠ [])
    (h : ∀ line ∈ lines, HeadLine line) :
    ∃ b rest, utf8 (headText lines) = b :: rest ∧ b ≠ 13 := by
  cases lines with
  | nil => exact absurd rfl some'
  | cons line more =>
    obtain ⟨filled, noReturn, _⟩ := h line List.mem_cons_self
    cases line with
    | nil => exact absurd rfl filled
    | cons c line =>
      obtain ⟨text, text_eq⟩ : ∃ text, headText ((c :: line) :: more) = c :: text := by
        cases more with
        | nil => exact ⟨line, headText_singleton _⟩
        | cons next more => exact ⟨_, headText_cons _ _ _⟩
      have apart := byte_not_mem (c := '\r') (by decide) noReturn
      rw [utf8_cons, List.mem_append, not_or] at apart
      cases bytes : String.utf8EncodeChar c with
      | nil => exact absurd bytes (encode_ne_nil c)
      | cons b rest =>
        refine ⟨b, rest ++ utf8 text, by rw [text_eq, utf8_cons, bytes, List.cons_append], ?_⟩
        rintro rfl
        rw [bytes] at apart
        exact apart.1 List.mem_cons_self

/-- The head of a response ends where its lines end. -/
theorem headEnd_responseBytes {lines : List (List Char)} (some' : lines ≠ [])
    (h : ∀ line ∈ lines, HeadLine line) (body : List UInt8) :
    headEnd (utf8 (headText lines) ++ ([13, 10, 13, 10] ++ body)) =
      some (utf8 (headText lines), body) := by
  induction lines with
  | nil => exact absurd rfl some'
  | cons line more ih =>
    have noReturn : (13 : UInt8) ∉ utf8 line :=
      byte_not_mem (c := '\r') (by decide) (h line List.mem_cons_self).2.1
    cases more with
    | nil =>
      rw [headText_singleton, headEnd_append noReturn, headEnd_empty_line,
        Option.map_some, List.append_nil]
    | cons next more =>
      have rest := ih (List.cons_ne_nil _ _) fun line h' => h line (List.mem_cons_of_mem _ h')
      obtain ⟨b, tail, first, apart⟩ :=
        utf8_headText_head (List.cons_ne_nil next more) fun line h' =>
          h line (List.mem_cons_of_mem _ h')
      have split : utf8 (headText (line :: next :: more)) =
          utf8 line ++ 13 :: 10 :: utf8 (headText (next :: more)) := by
        rw [headText_cons, utf8_append, utf8_cons_ascii (by decide), utf8_cons_ascii (by decide)]
        rfl
      rw [split, List.append_assoc, headEnd_append noReturn]
      rw [first, List.cons_append] at rest
      rw [first, List.cons_append, List.cons_append, List.cons_append, headEnd_return apart, rest]
      rfl

/-- A line end and its line come off the front of a text. -/
theorem lines_return {line : List Char} (h : '\n' ∉ line) (rest : List Char) :
    lines (line ++ '\r' :: '\n' :: rest) = line :: lines rest := by
  have none : ∀ c ∈ line ++ ['\r'], (c == '\n') = false := by
    intro c hc
    rw [beq_eq_false_iff_ne]
    rintro rfl
    rcases List.mem_append.mp hc with hc | hc
    · exact h hc
    · exact absurd hc (by decide)
  have nonempty : rest.splitOn '\n' ≠ [] := by
    rw [List.splitOn_eq_splitOnP]
    exact List.splitOnP_ne_nil _ _
  have split : (line ++ '\r' :: '\n' :: rest).splitOn '\n' =
      (line ++ ['\r']) :: rest.splitOn '\n' := by
    rw [List.splitOn_eq_splitOnP, show line ++ '\r' :: '\n' :: rest =
      (line ++ ['\r']) ++ '\n' :: rest by
        simp, List.splitOnP_append_cons_of_forall_mem none '\n' (by decide)]
    rfl
  have dropped : (if (line ++ ['\r']).getLast? = some '\r' then (line ++ ['\r']).dropLast
      else line ++ ['\r']) = line := by
    rw [if_pos (List.getLast?_concat ..), List.dropLast_concat]
  simp only [lines, split, List.dropLast_cons_of_ne_nil nonempty, List.map_cons,
    dropped, List.cons_append, List.getLast?_cons_of_ne_nil nonempty]

theorem lines_single {line : List Char} (filled : line ≠ []) (h : '\n' ∉ line) :
    lines line = [line] := by
  have none : ∀ c ∈ line, (c == '\n') = false := by
    intro c hc
    rw [beq_eq_false_iff_ne]
    rintro rfl
    exact h hc
  have split : line.splitOn '\n' = [line] := by
    rw [List.splitOn_eq_splitOnP, List.splitOnP_eq_singleton]
    exact none
  simp [lines, split, filled]

/-- The lines of a head are its lines. -/
theorem lines_headText {lines : List (List Char)} (h : ∀ line ∈ lines, HeadLine line) :
    StdText.lines (headText lines) = lines := by
  induction lines with
  | nil => rfl
  | cons line more ih =>
    obtain ⟨filled, _, noBreak⟩ := h line List.mem_cons_self
    cases more with
    | nil => rw [headText_singleton, lines_single filled noBreak]
    | cons next more =>
      rw [headText_cons, lines_return noBreak, ih fun line h' => h line (List.mem_cons_of_mem _ h')]

/-- `HTTP/1.1 200 OK`. -/
def statusLine (version : String) (status : UInt16) (reason : String) : List Char :=
  version.toList ++ ' ' :: (showNat status.toNat ++ ' ' :: reason.toList)

def headerLine (header : String × String) : List Char :=
  header.1.toList ++ ':' :: ' ' :: header.2.toList

/-- A header as the client keeps it. -/
def kept (header : String × String) : String × String :=
  (String.ofList ((trim header.1.toList).map toAsciiLowercase),
    String.ofList (trim header.2.toList))

/-- The bytes are a whole response, written with a status line and headers on lines of their
own, and not longer than a client takes. -/
structure Sent (bytes : List UInt8) (status : UInt16) (headers : List (String × String))
    (body : String) : Prop where
  written : ∃ version reason : String, "HTTP/1.".toList <+: version.toList ∧ ' ' ∉ version.toList ∧
    HeadLine (statusLine version status reason) ∧
    bytes = responseBytes (statusLine version status reason :: headers.map headerLine) body
  lines : ∀ header ∈ headers, HeadLine (headerLine header) ∧ ':' ∉ header.1.toList
  whole : ∀ header ∈ headers, (kept header).1 ≠ "transfer-encoding"
  small : bytes.length ≤ maxResponse

theorem parseHeaders_headText {first : List Char} {headers : List (String × String)}
    (start : HeadLine first)
    (h : ∀ header ∈ headers, HeadLine (headerLine header) ∧ ':' ∉ header.1.toList) :
    parseHeaders (headText (first :: headers.map headerLine)) = headers.map kept := by
  have all : ∀ line ∈ first :: headers.map headerLine, HeadLine line := by
    intro line hline
    rcases List.mem_cons.mp hline with rfl | hline
    · exact start
    · obtain ⟨header, there, rfl⟩ := List.mem_map.mp hline
      exact (h header there).1
  rw [parseHeaders, lines_headText all, List.drop_one, List.tail_cons, List.filterMap_map]
  have cut : ∀ header ∈ headers, ((fun line => (Subnet.splitOnce ':' line).map fun header =>
      (String.ofList ((trim header.1).map toAsciiLowercase), String.ofList (trim header.2))) ∘
        headerLine) header =
        some (kept header) := by
    intro header there
    have blank : trim (' ' :: header.2.toList) = trim header.2.toList := rfl
    rw [Function.comp_apply, headerLine, Subnet.splitOnce_append (h header there).2,
      Option.map_some, blank]
    rfl
  exact (List.filterMap_congr cut).trans (congrFun (List.filterMap_eq_map (f := kept)) headers)

/-- The words of a status line. -/
theorem splitOn_statusLine {version reason : String} (h : ' ' ∉ version.toList) (status : UInt16) :
    ∃ rest, (statusLine version status reason).splitOn ' ' =
      version.toList :: showNat status.toNat :: rest := by
  have none {line : List Char} (h : ' ' ∉ line) : ∀ c ∈ line, (c == ' ') = false := by
    intro c hc
    rw [beq_eq_false_iff_ne]
    rintro rfl
    exact h hc
  have digits : ' ' ∉ showNat status.toNat := by
    intro there
    exact absurd (List.all_eq_true.mp (all_isDigit_showNat status.toNat) ' ' there) (by decide)
  rw [statusLine, List.splitOn_eq_splitOnP,
    List.splitOnP_append_cons_of_forall_mem (none h) ' ' (by decide),
    List.splitOnP_append_cons_of_forall_mem (none digits) ' ' (by decide)]
  exact ⟨_, rfl⟩

/-- What a server sends is what the client reads. -/
theorem parseBounded_sent {bytes : List UInt8} {status : UInt16}
    {headers : List (String × String)} {body : String} (h : Sent bytes status headers body) :
    parseBounded bytes = .ok ⟨status, headers.map kept, body⟩ := by
  obtain ⟨⟨version, reason, http, word, start, rfl⟩, headerLines, whole, small⟩ := h
  have all : ∀ line ∈ statusLine version status reason :: headers.map headerLine,
      HeadLine line := by
    intro line hline
    rcases List.mem_cons.mp hline with rfl | hline
    · exact start
    · obtain ⟨header, there, rfl⟩ := List.mem_map.mp hline
      exact (headerLines header there).1
  obtain ⟨rest, words⟩ := @splitOn_statusLine version reason word status
  have plain : (headers.map kept).any (fun header => header.1 = "transfer-encoding") = false := by
    rw [List.any_eq_false]
    intro header held
    obtain ⟨sent, there, rfl⟩ := List.mem_map.mp held
    simpa using whole sent there
  rw [parseBounded, if_neg (Nat.not_lt.mpr small), parseResponse, responseBytes, List.append_assoc,
    headEnd_responseBytes (List.cons_ne_nil _ _) all]
  simp only [fromUtf8_utf8, fromUtf8_asBytes, String.toList_ofList, lines_headText all,
    List.head?_cons, Option.getD_some, words, List.isPrefixOf_iff_prefix.mpr http, Bool.not_true,
    Bool.false_eq_true, if_false, List.getElem?_cons_succ, List.getElem?_cons_zero,
    Option.bind_some, parseU16_showNat, parseHeaders_headText start headerLines, plain]

/-- A failing answer, read as far as it can be. -/
structure Failure where
  code : Option Proto.ErrorCode
  message : String
  deriving DecidableEq, Repr

/-- Reads a failing response. -/
def describe [Unicode] (status : UInt16) (body : String) : Failure :=
  let error : Option Proto.ApiError :=
    match Json.parse body with
    | .ok value => (Proto.ApiError.fromJson value).toOption
    | _ => none
  match error with
  | some error => ⟨some error.code, error.message⟩
  | none =>
    ⟨none, "HTTP " ++ String.ofList (showNat status.toNat) ++ ": " ++ String.ofList
      (trim body.toList)⟩

end Client
