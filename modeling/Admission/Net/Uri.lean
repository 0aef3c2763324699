/-!
# URIs

Only what is needed to call a webhook is read: the scheme, the authority with its host and port, and
the path with its query.  A fragment is dropped.  A text is a path if it starts with a slash, and
otherwise an authority, alone or after a scheme and `://`.
-/

namespace Admission.Net

/-- A URI taken apart. -/
structure Uri where
  /-- The scheme; http and https in lower case. -/
  scheme : Option String := none
  authority : Option String := none
  /-- The path, never empty after an authority with a scheme. -/
  path : String := ""
  query : Option String := none
  deriving DecidableEq, Repr

namespace Uri

/-- The most bytes a URI may have. -/
def maxLength : Nat := 65534

/-- The most characters before `://`. -/
def maxScheme : Nat := 64

/-- The most colons in a row of an authority: those of an address in brackets, and one. -/
def maxColons : Nat := 8

/-! ## the authority -/

/-- The characters an authority may hold besides the percent sign. -/
def isAuthorityChar (c : Char) : Bool :=
  c.isAlphanum || "!#$&'()*+,-./:;=?@[]_~".toList.contains c

/-- What has been seen of an authority. -/
structure Seen where
  colons : Nat := 0
  opened : Bool := false
  closed : Bool := false
  percent : Bool := false
  last : Option Char := none

/-- One more character of an authority, unless it may not stand there. -/
def Seen.step? (seen : Seen) (c : Char) : Option Seen :=
  let seen := { seen with last := some c }
  if c = ':' then
    if seen.colons < maxColons then some { seen with colons := seen.colons + 1 } else none
  else if c = '[' then
    if seen.percent || seen.opened then none else some { seen with opened := true }
  else if c = ']' then
    if !seen.opened || seen.closed then none
    else some { seen with closed := true, colons := 0, percent := false }
  else if c = '@' then some { seen with colons := 0, percent := false }
  else if c = '%' then some { seen with percent := true }
  else if isAuthorityChar c then some seen
  else none

/-- Where an authority ends. -/
def endsAuthority (c : Char) : Bool := c = '/' || c = '?' || c = '#'

/-- The authority a text starts with and the rest, if what stands there can be one.  Brackets must
be closed, at most one colon may stand after the user and the brackets, a percent sign only before
them, and the user may not be all there is. -/
def splitAuthority? (text : List Char) : Option (List Char × List Char) := do
  let authority := text.takeWhile fun c => !endsAuthority c
  let seen ← authority.foldlM Seen.step? {}
  if seen.opened ≠ seen.closed ∨ 1 < seen.colons ∨ seen.last = some '@' ∨ seen.percent then none
  else some (authority, text.dropWhile fun c => !endsAuthority c)

/-! ## path and query -/

/-- The characters of a path. -/
def isPathChar (c : Char) : Bool :=
  let n := c.toNat
  n = 0x21 || (0x24 ≤ n && n ≤ 0x3B) || n = 0x3D || (0x40 ≤ n && n ≤ 0x5F) ||
    (0x61 ≤ n && n ≤ 0x7E) || 0x7F ≤ n || c = '"'

/-- The characters of a query. -/
def isQueryChar (c : Char) : Bool :=
  let n := c.toNat
  n = 0x21 || (0x24 ≤ n && n ≤ 0x3B) || n = 0x3D || 0x3F ≤ n

/-- The path and the query of what follows an authority, the fragment dropped. -/
def splitPath? (text : List Char) : Option (String × Option String) :=
  let path := text.takeWhile fun c => c ≠ '?' && c ≠ '#'
  if !path.all isPathChar then none
  else
    match text.dropWhile fun c => c ≠ '?' && c ≠ '#' with
    | '?' :: rest =>
      let query := rest.takeWhile (· ≠ '#')
      if query.all isQueryChar then some (String.ofList path, some (String.ofList query)) else none
    | _ => some (String.ofList path, none)

/-! ## the scheme -/

/-- The characters of a scheme, the colon after it not counted. -/
def isSchemeChar (c : Char) : Bool := c.isAlphanum || c = '+' || c = '-' || c = '.' || c = '~'

/-- What stands before `://`. -/
inductive Leading where
  /-- No scheme. -/
  | bare
  | scheme (name : String) (rest : List Char)
  | tooLong

/-- Cuts the scheme off. -/
def leading (text : List Char) : Leading :=
  let lower := text.map Char.toLower
  if ("http://".toList).isPrefixOf lower then .scheme "http" (text.drop 7)
  else if ("https://".toList).isPrefixOf lower then .scheme "https" (text.drop 8)
  else
    let name := text.takeWhile isSchemeChar
    match text.dropWhile isSchemeChar with
    | ':' :: '/' :: '/' :: rest =>
      if text.length ≤ 3 then .bare
      else if maxScheme < name.length then .tooLong
      else .scheme (String.ofList name) rest
    | _ => .bare

/-! ## the whole -/

/-- Takes a text apart as a URI. -/
def ofText? (text : String) : Option Uri :=
  if maxLength < text.utf8ByteSize ∨ text = "" then none
  else if text = "*" then some { path := "*" }
  else
    let chars := text.toList
    if chars.head? = some '/' then
      (splitPath? chars).map fun (path, query) => { path := path, query := query }
    else
      match (if chars.length = 1 then .bare else leading chars) with
      | .tooLong => none
      | .bare =>
        match splitAuthority? chars with
        | some (authority, []) => some { authority := some (String.ofList authority) }
        | _ => none
      | .scheme name rest => do
        let (authority, rest) ← splitAuthority? rest
        if authority = [] then none
        else
          let (path, query) ← splitPath? rest
          some { scheme := some name, authority := some (String.ofList authority)
                 path := if path = "" then "/" else path, query := query }

/-! ## host and port of an authority -/

/-- What follows the last occurrence of a character, if it occurs. -/
def afterLast? (mark : Char) (text : List Char) : Option (List Char) :=
  if text.contains mark then some ((text.reverse.takeWhile (· ≠ mark)).reverse) else none

/-- The host of an authority: what follows the user, up to the port or with its brackets. -/
def host (authority : String) : String :=
  let chars := authority.toList
  let chars := (afterLast? '@' chars).getD chars
  match chars with
  | '[' :: _ => String.ofList (chars.takeWhile (· ≠ ']') ++ [']'])
  | _ => String.ofList (chars.takeWhile (· ≠ ':'))

/-- A number in 0..65535, written in digits with perhaps a plus sign. -/
def portNumber? (text : List Char) : Option Nat :=
  let digits := match text with
    | '+' :: rest => rest
    | text => text
  if digits ≠ [] ∧ digits.all Char.isDigit then
    let n := digits.foldl (fun n c => 10 * n + (c.toNat - 48)) 0
    if n < 65536 then some n else none
  else none

/-- The port of an authority, if what follows its last colon is one. -/
def port? (authority : String) : Option Nat :=
  (afterLast? ':' authority.toList).bind portNumber?

/-- The path and query as they stand in a request line. -/
def target (uri : Uri) : String :=
  match uri.query with
  | some query => uri.path ++ "?" ++ query
  | none => uri.path

end Uri

end Admission.Net
