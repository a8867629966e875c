/-!
# Markup errors

Why a text is not well-formed markup. Positions count bytes from the start of a tag's content,
ranges count bytes of the text or attribute value at hand.
-/

namespace WebSub.Markup

inductive Error where
  /-- `<!` is followed by none of the three kinds of declaration. -/
  | unknownDeclaration
  | unclosedInstruction
  | unclosedComment
  | unclosedDoctype
  | unclosedCdata
  | unclosedTag
  | mismatchedEnd (expected found : String)
  | unmatchedEnd (found : String)
  | unnamedDoctype
  | expectedEquals (position : Nat)
  | expectedValue (position : Nat)
  | unquotedValue (position : Nat)
  | expectedQuote (position : Nat) (quote : Char)
  | duplicatedAttribute (position previous : Nat)
  | unknownEntity (start stop : Nat) (name : String)
  | unterminatedReference (start stop : Nat)
  /-- A character number starts with a sign. -/
  | signedNumber
  | invalidDigit
  | emptyNumber
  | numberTooLarge
  /-- The number is that of no character. -/
  | noCharacter (code : Nat)
  | nullCharacter
deriving DecidableEq, Repr

namespace Error

private def notClosed (what ending : String) : String :=
  "syntax error: " ++ what ++ " not closed: " ++ "\x60" ++ ending ++
    "\x60 not found before end of input"

private def atPosition (position : Nat) (text : String) : String :=
  "position " ++ toString position ++ ": " ++ text

private def badNumber (text : String) : String := "invalid character reference: " ++ text

def message : Error → String
  | .unknownDeclaration => "syntax error: unknown or missed symbol in markup"
  | .unclosedInstruction => notClosed "processing instruction or xml declaration" "?>"
  | .unclosedComment => notClosed "comment" "-->"
  | .unclosedDoctype => notClosed "DOCTYPE" ">"
  | .unclosedCdata => notClosed "CDATA" "]]>"
  | .unclosedTag => notClosed "tag" ">"
  | .mismatchedEnd expected found =>
    "ill-formed document: expected \x60</" ++ expected ++ ">\x60, but \x60</" ++ found ++
      ">\x60 was found"
  | .unmatchedEnd found =>
    "ill-formed document: close tag \x60</" ++ found ++ ">\x60 does not match any open tag"
  | .unnamedDoctype =>
    "ill-formed document: \x60<!DOCTYPE>\x60 declaration does not contain a name of a document type"
  | .expectedEquals p =>
    atPosition p "attribute key must be directly followed by \x60=\x60 or space"
  | .expectedValue p => atPosition p "\x60=\x60 must be followed by an attribute value"
  | .unquotedValue p => atPosition p "attribute value must be enclosed in \x60\"\x60 or \x60'\x60"
  | .expectedQuote p q =>
    atPosition p ("missing closing quote \x60" ++ String.ofList [q] ++ "\x60 in attribute value")
  | .duplicatedAttribute p previous =>
    atPosition p ("duplicated attribute, previous declaration at position " ++ toString previous)
  | .unknownEntity start stop name =>
    "at " ++ toString start ++ ".." ++ toString stop ++
      ": unrecognized entity \x60" ++ name ++ "\x60"
  | .unterminatedReference start stop =>
    "Error while escaping character at range " ++ toString start ++ ".." ++ toString stop ++
      ": Cannot find ';' after '&'"
  | .signedNumber => badNumber "unexpected number sign"
  | .invalidDigit => badNumber "invalid digit found in string"
  | .emptyNumber => badNumber "cannot parse integer from empty string"
  | .numberTooLarge => badNumber "number too large to fit in target type"
  | .noCharacter code => badNumber ("\x60" ++ toString code ++ "\x60 is not a valid codepoint")
  | .nullCharacter => badNumber "0x0 character is not permitted in XML"

end Error

end WebSub.Markup
