import Admission.Text.Base64
import Admission.Text.Utf8

/-!
# PEM text

Sections of base64 between a line that begins one and a line that ends it.  Text outside sections
and sections of unknown kinds are passed over.  A section that does not end, a begin line with other
than five dashes at its end, and bad base64 in a section of a known kind are errors.
-/

namespace Admission

/-- What is wrong with a PEM text. -/
inductive PemError where
  | badBegin
  | missingEnd
  | badBase64
  deriving DecidableEq, Repr

def PemError.message : PemError → String
  | .badBegin => "illegal section start"
  | .missingEnd => "missing section end"
  | .badBase64 => "bad base64"

namespace Pem

/-- The kinds of sections that are read. -/
inductive SectionKind where
  | certificate
  | privateKey
  /-- Known, and of no use here. -/
  | other
  deriving DecidableEq, Repr

/-- A section and the bytes it stands for. -/
structure Section where
  kind : SectionKind
  der : List UInt8
  deriving DecidableEq, Repr

/-- The kind of a label, if it is known. -/
def SectionKind.ofLabel? (label : List UInt8) : Option SectionKind :=
  let known (names : List String) : Bool := names.any fun name => Utf8.encode name = label
  if known ["CERTIFICATE"] then some .certificate
  else if known ["PRIVATE KEY", "RSA PRIVATE KEY", "EC PRIVATE KEY"] then some .privateKey
  else if known ["PUBLIC KEY", "X509 CRL", "CERTIFICATE REQUEST"] then some .other
  else none

def isNewline (b : UInt8) : Bool := b = 10 || b = 13

/-- The lines of a text; a carriage return ends a line too. -/
def lines : List UInt8 → List (List UInt8)
  | [] => []
  | b :: rest =>
    if isNewline b then [] :: lines rest
    else
      match rest, lines rest with
      | next :: _, line :: more => if isNewline next then [b] :: more else (b :: line) :: more
      | _, _ => [[b]]

def beginMark : List UInt8 := Utf8.encode "-----BEGIN "

def endMark (label : List UInt8) : List UInt8 :=
  Utf8.encode "-----END " ++ label ++ Utf8.encode "-----"

/-- The label of a begin line, which ends with five dashes and perhaps blanks. -/
def label? (line : List UInt8) : Option (List UInt8) :=
  let tail := line.reverse.takeWhile fun b => b = 45 || b = 32
  if (tail.filter (· = 45)).length = 5 then
    let kept := (tail.reverse.dropWhile (· = 32)).length
    some ((line.take (line.length - kept)).drop beginMark.length)
  else none

/-- The bytes of a section's lines; blanks do not count. -/
def decodeBody? (body : List UInt8) : Option (List UInt8) :=
  let kept := body.filter fun b => !(b = 32 || b = 9)
  (Utf8.decode? kept).bind Base64.decode?

/-- The first section of the lines and what follows it.  `opened` is the label of the section that
has begun, `body` what it holds so far. -/
def next (opened : Option (List UInt8)) (body : List UInt8) :
    List (List UInt8) → Except PemError (Option (Section × List (List UInt8)))
  | [] => if opened.isSome then .error .missingEnd else .ok none
  | line :: rest =>
    if beginMark.isPrefixOf line then
      match label? line with
      | some label => next (some label) body rest
      | none => .error .badBegin
    else
      match opened with
      | none => next none body rest
      | some label =>
        if (endMark label).isPrefixOf line then
          match SectionKind.ofLabel? label with
          | none => next none [] rest
          | some kind =>
            match decodeBody? body with
            | some der => .ok (some (⟨kind, der⟩, rest))
            | none => .error .badBase64
        else next (some label) (body ++ line) rest

theorem next_shorter {opened : Option (List UInt8)} {body : List UInt8}
    {text : List (List UInt8)} {s : Section} {rest : List (List UInt8)}
    (h : next opened body text = .ok (some (s, rest))) : rest.length < text.length := by
  induction text generalizing opened body with
  | nil => unfold next at h; split at h <;> simp at h
  | cons line more ih =>
    unfold next at h
    split at h
    · split at h
      · exact Nat.lt_succ_of_lt (ih h)
      · simp at h
    · split at h
      · exact Nat.lt_succ_of_lt (ih h)
      · split at h
        · split at h
          · exact Nat.lt_succ_of_lt (ih h)
          · split at h
            · simp only [Except.ok.injEq, Option.some.injEq, Prod.mk.injEq] at h
              obtain ⟨-, rfl⟩ := h
              exact Nat.lt_succ_self _
            · simp at h
        · exact Nat.lt_succ_of_lt (ih h)

/-- All certificates of the lines. -/
def certificatesOf (text : List (List UInt8)) : Except PemError (List (List UInt8)) :=
  match h : next none [] text with
  | .error e => .error e
  | .ok none => .ok []
  | .ok (some (s, rest)) =>
    have : rest.length < text.length := next_shorter h
    match certificatesOf rest with
    | .error e => .error e
    | .ok more => .ok (if s.kind = .certificate then s.der :: more else more)
  termination_by text.length

/-- The first private key of the lines; what follows it is not looked at. -/
def privateKeyOf (text : List (List UInt8)) : Except PemError (Option (List UInt8)) :=
  match h : next none [] text with
  | .error e => .error e
  | .ok none => .ok none
  | .ok (some (s, rest)) =>
    have : rest.length < text.length := next_shorter h
    if s.kind = .privateKey then .ok (some s.der) else privateKeyOf rest
  termination_by text.length

/-- All certificates of a text. -/
def certificates (text : List UInt8) : Except PemError (List (List UInt8)) :=
  certificatesOf (lines text)

/-- The first private key of a text. -/
def privateKey (text : List UInt8) : Except PemError (Option (List UInt8)) :=
  privateKeyOf (lines text)

end Pem

end Admission
