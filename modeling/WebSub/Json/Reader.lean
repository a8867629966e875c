import WebSub.Json.Lexer

/-!
# Reading JSON

Whole values, and values that are only passed over. Wanted values may nest up to a limit; the ones
passed over are looked at just closely enough to find their end.
-/

namespace WebSub.Json

/-- Arrays and objects may not be nested deeper. -/
def maxDepth : Nat := 127

/-- Puts a member in place of an earlier one of its name, or else at the end. -/
def putMember (members : List (String × Json)) (name : String) (v : Json) :
    List (String × Json) :=
  if members.any (·.1 == name) then
    members.map fun m => if m.1 == name then (name, v) else m
  else members ++ [(name, v)]

mutual

/-- Reads one value; `depth` more levels may open. -/
def valueFrom (fuel depth : Nat) (text : List Char) : Token Json :=
  match fuel with
  | 0 => .error .malformed
  | fuel + 1 =>
    match skipBlanks text with
    | [] => .error .malformed
    | c :: rest =>
      if c = 'n' then (word "ull".toList rest).map (.null, ·)
      else if c = 't' then (word "rue".toList rest).map (.bool true, ·)
      else if c = 'f' then (word "alse".toList rest).map (.bool false, ·)
      else if c = '"' then (stringToken rest).map fun (s, r) => (.str s, r)
      else if startsNumber c then (numberToken (c :: rest)).map fun (n, r) => (.number n, r)
      else if c = '[' then
        match depth with
        | 0 => .error .malformed
        | depth + 1 =>
          match skipBlanks rest with
          | ']' :: after => .ok (.array [], after)
          | _ => itemsFrom fuel depth [] rest
      else if c = '\x7b' then
        match depth with
        | 0 => .error .malformed
        | depth + 1 =>
          match skipBlanks rest with
          | '\x7d' :: after => .ok (.object [], after)
          | _ => membersFrom fuel depth [] rest
      else .error .malformed

/-- Reads the items of an array from one that must be there. -/
def itemsFrom (fuel depth : Nat) (read : List Json) (text : List Char) : Token Json :=
  match fuel with
  | 0 => .error .malformed
  | fuel + 1 =>
    match valueFrom fuel depth text with
    | .error e => .error e
    | .ok (v, rest) =>
      match skipBlanks rest with
      | ',' :: more => itemsFrom fuel depth (v :: read) more
      | ']' :: after => .ok (.array (v :: read).reverse, after)
      | _ => .error .malformed

/-- Reads the members of an object from one that must be there. -/
def membersFrom (fuel depth : Nat) (read : List (String × Json)) (text : List Char) :
    Token Json :=
  match fuel with
  | 0 => .error .malformed
  | fuel + 1 =>
    match skipBlanks text with
    | '"' :: rest =>
      match stringToken rest with
      | .error e => .error e
      | .ok (name, rest) =>
        match skipBlanks rest with
        | ':' :: rest =>
          match valueFrom fuel depth rest with
          | .error e => .error e
          | .ok (v, rest) =>
            match skipBlanks rest with
            | ',' :: more => membersFrom fuel depth (putMember read name v) more
            | '\x7d' :: after => .ok (.object (putMember read name v), after)
            | _ => .error .malformed
        | _ => .error .malformed
    | _ => .error .malformed

end

/-- Reads a text that holds one value and nothing else. -/
def read? (bytes : List UInt8) : Option Json :=
  let text := octets bytes
  match valueFrom (2 * text.length + 2) maxDepth text with
  | .ok (v, rest) => if skipBlanks rest = [] then some v else none
  | .error _ => none

/-! ## Passing over values -/

/-- Passes over one value, inside the brackets that are still open, innermost first. -/
def skipFrom : Nat → List Char → List Char → Except Fault (List Char)
  | 0, _, _ => .error .malformed
  | fuel + 1, opened, text =>
    let ended (rest : List Char) : Except Fault (List Char) :=
      closeFrom fuel opened rest
    match skipBlanks text with
    | [] => .error .malformed
    | c :: rest =>
      if c = 'n' then (word "ull".toList rest).bind ended
      else if c = 't' then (word "rue".toList rest).bind ended
      else if c = 'f' then (word "alse".toList rest).bind ended
      else if c = '"' then (skipString rest).bind ended
      else if startsNumber c then
        (numeral (c :: rest)).bind fun (_, r) => ended r
      else if c = '[' then
        match skipBlanks rest with
        | ']' :: after => ended after
        | _ => skipFrom fuel ('[' :: opened) rest
      else if c = '\x7b' then
        match skipBlanks rest with
        | '\x7d' :: after => ended after
        | _ => nameFrom fuel ('\x7b' :: opened) rest
      else .error .malformed
where
  /-- Passes over a member's name and colon, and goes on to its value. -/
  nameFrom : Nat → List Char → List Char → Except Fault (List Char)
    | 0, _, _ => .error .malformed
    | fuel + 1, opened, text =>
      match skipBlanks text with
      | '"' :: rest =>
        match skipString rest with
        | .error e => .error e
        | .ok rest =>
          match skipBlanks rest with
          | ':' :: rest => skipFrom fuel opened rest
          | _ => .error .malformed
      | _ => .error .malformed
  /-- After a value: the brackets that close, or the next item or member. -/
  closeFrom : Nat → List Char → List Char → Except Fault (List Char)
    | _, [], text => .ok text
    | 0, _, _ => .error .malformed
    | fuel + 1, bracket :: outer, text =>
      match skipBlanks text with
      | ',' :: rest =>
        if bracket = '[' then skipFrom fuel (bracket :: outer) rest
        else nameFrom fuel (bracket :: outer) rest
      | ']' :: rest =>
        if bracket = '[' then closeFrom fuel outer rest else .error .malformed
      | '\x7d' :: rest =>
        if bracket = '[' then .error .malformed else closeFrom fuel outer rest
      | _ => .error .malformed

def skipValue (text : List Char) : Except Fault (List Char) :=
  skipFrom (2 * text.length + 2) [] text

end WebSub.Json
