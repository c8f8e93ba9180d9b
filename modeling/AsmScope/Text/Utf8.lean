import AsmScope.Text.Basic
/-! # UTF-8

Bytes and the text that they hold. The decoder is a machine that takes one byte at a time and knows,
inside a character, which bytes may come next; so a broken sequence is noticed at its first byte
that does not belong, and that byte is read again as a beginning. `scan` reports each character and
each maximal invalid piece in order. Strict decoding asks for a report without invalid pieces,
replacing decoding shows each piece as U+FFFD. -/

namespace AsmScope

/-- A sequence of bytes. -/
abbrev Bytes : Type := List UInt8

namespace Utf8

/-- The UTF-8 form of a text. -/
def encode (s : String) : Bytes := s.toList.flatMap String.utf8EncodeChar

/-- Where the decoder stands: between characters, or inside one of which `value` has been read,
`remaining` bytes are missing and the next one must lie between `least` and `greatest`. -/
inductive Progress
  | between
  | inside (value remaining least greatest : Nat)
  deriving DecidableEq, Repr

/-- What is reported of a byte: whole characters, and `none` for an invalid piece. -/
abbrev Report : Type := List (Option Char)

/-- Reads a byte as the first one of a character. -/
def begin (byte : Nat) : Report × Progress :=
  if byte < 0x80 then ([some (Char.ofNat byte)], .between)
  else if byte < 0xC2 then ([none], .between)
  else if byte < 0xE0 then ([], .inside (byte - 0xC0) 1 0x80 0xBF)
  else if byte = 0xE0 then ([], .inside 0 2 0xA0 0xBF)
  else if byte = 0xED then ([], .inside 0xD 2 0x80 0x9F)
  else if byte < 0xF0 then ([], .inside (byte - 0xE0) 2 0x80 0xBF)
  else if byte = 0xF0 then ([], .inside 0 3 0x90 0xBF)
  else if byte < 0xF4 then ([], .inside (byte - 0xF0) 3 0x80 0xBF)
  else if byte = 0xF4 then ([], .inside 4 3 0x80 0x8F)
  else ([none], .between)

/-- Reads one byte. A byte that cannot continue the open character ends it as invalid and begins
anew. -/
def step : Progress → Nat → Report × Progress
  | .between, byte => begin byte
  | .inside value remaining least greatest, byte =>
    if least ≤ byte ∧ byte ≤ greatest then
      let value := value * 64 + (byte - 0x80)
      if remaining ≤ 1 then ([some (Char.ofNat value)], .between)
      else ([], .inside value (remaining - 1) 0x80 0xBF)
    else
      let (report, progress) := begin byte
      (none :: report, progress)

/-- The characters and invalid pieces of a byte sequence; a character that the end cuts off is an
invalid piece. -/
def scan : Progress → Bytes → Report
  | .between, [] => []
  | .inside .., [] => [none]
  | progress, byte :: rest =>
    (step progress byte.toNat).1 ++ scan (step progress byte.toNat).2 rest

/-- The text of a byte sequence, if all of it is valid. -/
def decode? (bytes : Bytes) : Option String := ((scan .between bytes).mapM id).map String.ofList

/-- The text of a byte sequence, with U+FFFD for each maximal invalid piece. -/
def decodeReplacing (bytes : Bytes) : String :=
  String.ofList ((scan .between bytes).map fun c => c.getD '\uFFFD')

/-- The text of a text file: valid UTF-8, with every line end as a line feed. -/
def decodeFile? (bytes : Bytes) : Option String :=
  (decode? bytes).map fun s => String.ofList (Text.unifyLineFeeds s.toList)

/-- The empty text has the empty form. -/
@[simp] theorem decode?_nil : decode? [] = some "" := rfl

/-- Nothing is put in place of anything there. -/
@[simp] theorem decodeReplacing_nil : decodeReplacing [] = "" := rfl

/-- Where strict decoding succeeds, replacing decoding gives the same text. -/
theorem decodeReplacing_of_decode? {bytes : Bytes} {s : String} (h : decode? bytes = some s) :
    decodeReplacing bytes = s := by
  obtain ⟨cs, hcs, rfl⟩ := Option.map_eq_some_iff.1 h
  -- where nothing is reported as broken, the replacements have nothing to replace
  have hmap : ∀ (report : Report) (cs : List Char), report.mapM id = some cs →
      report.map (fun c => c.getD '\uFFFD') = cs := by
    intro report
    induction report with
    | nil => intro cs h; simpa using h
    | cons c report ih =>
      intro cs h
      cases c with
      | none => simp at h
      | some c =>
        cases hr : report.mapM id with
        | none => simp [hr] at h
        | some ds =>
          simp [hr] at h
          subst h
          simp [ih ds hr]
  simp [decodeReplacing, hmap _ _ hcs]

end Utf8

end AsmScope
