import ObjectStore.Timestamp

/-!
# Signatures

Who did something, and when: `Name <email> <seconds> <offset>`. Neither the name nor the email
holds a character that delimits the parts of this form, and the name has no blanks at its ends;
both are part of the type, so every signature can be written and read again.
-/

namespace ObjectStore

namespace Signature

/-- A character that delimits the parts of a signature or of the header it stands in. -/
def isDelimiter (c : Char) : Bool := c == '<' || c == '>' || c == '\n' || c == '\x00'

/-- A text without delimiters. -/
def isPlain (s : String) : Bool := s.toList.all fun c => !isDelimiter c

/-- Trimming a plain text leaves it plain. -/
theorem isPlain_trim {s : String} (h : isPlain s = true) : isPlain (Text.trim s) = true := by
  simp only [isPlain, Text.trim, String.toList_ofList, List.all_eq_true] at h ⊢
  exact fun c hc => h c (Text.mem_of_mem_trimmed hc)

end Signature

/-- An identity and a moment. -/
structure Signature where
  name : String
  email : String
  time : Timestamp
  name_plain : Signature.isPlain name = true
  email_plain : Signature.isPlain email = true
  name_trimmed : Text.trim name = name
  deriving DecidableEq

namespace Signature

/-- The signature of the given parts. Blanks at the ends of the name are dropped. -/
def make (name email : String) (time : Timestamp) : Except SignatureFault Signature :=
  if h : isPlain name = true ∧ isPlain email = true then
    .ok ⟨Text.trim name, email, time, isPlain_trim h.1, h.2, by
      simp [Text.trim, Text.trimmed_trimmed]⟩
  else .error (.delimiter name email)

/-- The identity: `Name <email>`. -/
def identity (s : Signature) : String := s.name ++ " <" ++ s.email ++ ">"

/-- The form in which a signature stands in a commit. -/
def text (s : Signature) : String := s.identity ++ " " ++ String.ofList s.time.raw

/-- Read a signature. The email reaches from the first `<` to the last `>`. -/
def parse (text : String) : Except SignatureFault Signature := do
  let (name, afterName) ← (cutAt? '<' text.toList).elim (.error (.missingOpen text)) .ok
  let (dateBackwards, emailBackwards) ←
    (cutAt? '>' afterName.reverse).elim (.error (.missingClose text)) .ok
  let time ← Timestamp.parseRaw (String.ofList dateBackwards.reverse)
  make (Text.trim (String.ofList name)) (String.ofList emailBackwards.reverse) time

end Signature

end ObjectStore
