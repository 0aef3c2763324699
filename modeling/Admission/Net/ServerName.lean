/-!
# Server names

The names a server can be asked to prove: a DNS name or an IP address.  A DNS name is labels of
letters, digits, underscores and inner hyphens, each at most 63 long and all at most 253 long; the
last label may not be a number, and one dot may follow it.
-/

namespace Admission.Net

/-- The characters of a label besides the hyphen. -/
def isLabelChar (c : Char) : Bool := c.isAlphanum || c = '_'

/-- Whether a text is one label. -/
def isLabel (label : List Char) : Bool :=
  label ≠ [] && label.length ≤ 63 && label.all (fun c => isLabelChar c || c = '-') &&
    label.head? ≠ some '-' && label.getLast? ≠ some '-'

/-- The parts of a text between the occurrences of a character. -/
def splitOn (mark : Char) : List Char → List (List Char)
  | [] => [[]]
  | c :: rest =>
    if c = mark then [] :: splitOn mark rest
    else
      match splitOn mark rest with
      | part :: parts => (c :: part) :: parts
      | [] => [[c]]

/-- Whether a text is a DNS name. -/
def isDnsName (name : String) : Bool :=
  let labels := splitOn '.' name.toList
  let labels := if 1 < labels.length ∧ labels.getLast? = some [] then labels.dropLast else labels
  name.length ≤ 253 && labels.all isLabel &&
    match labels.getLast? with
    | some label => !label.all Char.isDigit
    | none => false

/-- Whether a text is a decimal byte without leading zeros. -/
def isOctet (text : List Char) : Bool :=
  text ≠ [] && text.length ≤ 3 && text.all Char.isDigit && (text.head? ≠ some '0' || text = ['0']) &&
    text.foldl (fun n c => 10 * n + (c.toNat - 48)) 0 < 256

/-- Whether a text is an IPv4 address. -/
def isIpv4 (text : List Char) : Bool :=
  let parts := splitOn '.' text
  parts.length = 4 && parts.all isOctet

/-- Whether a text is a group of an IPv6 address. -/
def isGroup (text : List Char) : Bool :=
  text ≠ [] && text.length ≤ 4 &&
    text.all fun c => c.isDigit || ('a' ≤ c && c ≤ 'f') || ('A' ≤ c && c ≤ 'F')

/-- How many groups a run of groups has; an IPv4 address may stand for the last two. -/
def groupCount? (text : List Char) : Option Nat :=
  if text = [] then some 0
  else
    let parts := splitOn ':' text
    if parts.all isGroup then some parts.length
    else if parts.dropLast.all isGroup && (parts.getLast?.map isIpv4).getD false then
      some (parts.length + 1)
    else none

/-- Cuts a text at the first double colon. -/
def splitGap? : List Char → Option (List Char × List Char)
  | ':' :: ':' :: rest => some ([], rest)
  | c :: rest => (splitGap? rest).map fun (before, after) => (c :: before, after)
  | [] => none

/-- Whether a text is an IPv6 address: eight groups, or fewer around one double colon. -/
def isIpv6 (text : List Char) : Bool :=
  match splitGap? text with
  | none => groupCount? text = some 8
  | some (before, after) =>
    match groupCount? before, groupCount? after with
    | some m, some n => m + n < 8 && !before.contains '.'
    | _, _ => false

/-- Whether a text names a server. -/
def isServerName (name : String) : Bool :=
  isDnsName name || isIpv4 name.toList || isIpv6 name.toList

end Admission.Net
