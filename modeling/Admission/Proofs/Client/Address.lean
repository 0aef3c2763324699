import Admission.Client.Basic
import Admission.Proofs.Lists
import Mathlib.Data.List.Induction
import Mathlib.Data.List.TakeWhile
import Mathlib.Data.Nat.Digits.Defs

/-!
# Where a URL leads

What a URL says of where it leads is in how its authority is written: perhaps a user, a host that may stand in
brackets, and perhaps a port (`Address`, `Address.Names`).  Everything a client is made of is taken from the
authority by code of its own, each part by another one; all of them agree with how it is written:

* the host to dial (`Address.trimBrackets_host`), the port (`Address.port?_text`) and the host whose
  credentials are looked up (`Address.hostOf_text`);
* taking the URL apart finds the authority itself (`Address.Names.ofText?`), and what it finds is an address
  unless brackets stand where they do not belong (`exists_names`).
-/

namespace Admission.Net

/-! ## 1. Numbers -/

/-- **A text is a number**, in digits with perhaps a plus sign before them. -/
def Spells (text : List Char) (n : Nat) : Prop :=
  ∃ digits, (text = digits ∨ text = '+' :: digits) ∧ digits ≠ [] ∧ (∀ c ∈ digits, c.isDigit = true) ∧
    n = Nat.ofDigits 10 (digits.reverse.map fun c => c.toNat - 48)

theorem foldl_digits (digits : List Char) :
    digits.foldl (fun n c => 10 * n + (c.toNat - 48)) 0 =
      Nat.ofDigits 10 (digits.reverse.map fun c => c.toNat - 48) := by
  induction digits using List.reverseRecOn with
  | nil => rfl
  | append_singleton digits last ih =>
    rw [List.foldl_append, List.foldl_cons, List.foldl_nil, ih, List.reverse_append, List.reverse_cons,
      List.reverse_nil, List.nil_append, List.singleton_append, List.map_cons, Nat.ofDigits_cons]
    exact Nat.add_comm _ _

/-- **Ports are the numbers up to 65535.** -/
theorem portNumber?_eq_some {text : List Char} {n : Nat} :
    Uri.portNumber? text = some n ↔ Spells text n ∧ n < 65536 := by
  have hread : ∀ digits : List Char,
      (if digits ≠ [] ∧ digits.all Char.isDigit = true then
        if digits.foldl (fun n c => 10 * n + (c.toNat - 48)) 0 < 65536 then
          some (digits.foldl (fun n c => 10 * n + (c.toNat - 48)) 0)
        else none
      else none) = some n ↔
      (digits ≠ [] ∧ (∀ c ∈ digits, c.isDigit = true) ∧
        n = Nat.ofDigits 10 (digits.reverse.map fun c => c.toNat - 48)) ∧ n < 65536 := by
    intro digits
    rw [← foldl_digits]
    generalize digits.foldl (fun n c => 10 * n + (c.toNat - 48)) 0 = value
    by_cases hdigits : digits ≠ [] ∧ digits.all Char.isDigit = true
    · rw [if_pos hdigits]
      by_cases hvalue : value < 65536
      · rw [if_pos hvalue]
        constructor
        · rintro ⟨⟩
          exact ⟨⟨hdigits.1, List.all_eq_true.1 hdigits.2, rfl⟩, hvalue⟩
        · rintro ⟨⟨-, -, rfl⟩, -⟩
          rfl
      · rw [if_neg hvalue]
        constructor
        · rintro ⟨⟩
        · rintro ⟨⟨-, -, rfl⟩, hlt⟩
          exact absurd hlt hvalue
    · rw [if_neg hdigits]
      constructor
      · rintro ⟨⟩
      · rintro ⟨⟨hne, hall, -⟩, -⟩
        exact absurd ⟨hne, List.all_eq_true.2 hall⟩ hdigits
  have hplus : ∀ digits : List Char, (∀ c ∈ '+' :: digits, c.isDigit = true) → False := by
    intro digits h
    exact absurd (h '+' List.mem_cons_self) (by decide)
  unfold Uri.portNumber? Spells
  split
  · rename_i rest
    refine (hread rest).trans ?_
    constructor
    · rintro ⟨h, hlt⟩
      exact ⟨⟨rest, .inr rfl, h⟩, hlt⟩
    · rintro ⟨⟨digits, rfl | heq, h⟩, hlt⟩
      · exact (hplus _ h.2.1).elim
      · exact ⟨(List.cons.inj heq).2 ▸ h, hlt⟩
  · rename_i hno
    refine (hread text).trans ?_
    constructor
    · rintro ⟨h, hlt⟩
      exact ⟨⟨text, .inl rfl, h⟩, hlt⟩
    · rintro ⟨⟨digits, rfl | rfl, h⟩, hlt⟩
      · exact ⟨h, hlt⟩
      · exact absurd rfl (hno digits)

theorem portNumber?_eq_none {text : List Char} {c : Char} (hm : c ∈ text) (hplus : c ≠ '+')
    (hdigit : c.isDigit = false) : Uri.portNumber? text = none := by
  refine Option.eq_none_iff_forall_ne_some.2 fun n h => ?_
  obtain ⟨⟨digits, htext, -, hall, -⟩, -⟩ := portNumber?_eq_some.1 h
  have hin : c ∈ digits := by
    rcases htext with rfl | rfl
    · exact hm
    · exact (List.mem_cons.1 hm).resolve_left hplus
  rw [hall c hin] at hdigit
  cases hdigit

/-! ## 2. Cutting texts -/

section Cuts

variable {mark : Char} {before after : List Char}

theorem afterLast?_mark (h : mark ∉ after) :
    Uri.afterLast? mark (before ++ mark :: after) = some after := by
  have hmark : (before ++ mark :: after).contains mark = true := by simp
  have hreverse : (before ++ mark :: after).reverse = after.reverse ++ mark :: before.reverse := by simp
  unfold Uri.afterLast?
  rw [if_pos hmark, hreverse, takeWhile_mark (by simpa using h), List.reverse_reverse]

theorem afterLast?_unmarked (h : mark ∉ before) : Uri.afterLast? mark before = none := by
  unfold Uri.afterLast?
  rw [if_neg (by simpa using h)]

theorem exists_of_afterLast? {text : List Char} (h : Uri.afterLast? mark text = some after) :
    mark ∉ after ∧ ∃ before, text = before ++ mark :: after := by
  unfold Uri.afterLast? at h
  split at h
  · rename_i hmark
    cases h
    have hin : mark ∈ text.reverse := by simpa using hmark
    have hcut := List.takeWhile_append_dropWhile (p := fun c => decide (c ≠ mark)) (l := text.reverse)
    have hnot : mark ∉ text.reverse.takeWhile (· ≠ mark) := by
      intro hm
      simpa using List.mem_takeWhile_imp hm
    refine ⟨by simpa using hnot, ?_⟩
    cases hrest : text.reverse.dropWhile (· ≠ mark) with
    | nil =>
      rw [hrest, List.append_nil] at hcut
      rw [← hcut] at hin
      exact absurd hin hnot
    | cons c rest =>
      have hc : c = mark := by
        have hhead := List.head?_dropWhile_not (fun c => decide (c ≠ mark)) text.reverse
        rw [hrest] at hhead
        simpa using hhead
      rw [hrest, hc] at hcut
      refine ⟨rest.reverse, ?_⟩
      have hback := congrArg List.reverse hcut
      simpa using hback.symm
  · cases h

theorem afterLast?_append (h : mark ∉ after) :
    Uri.afterLast? mark (before ++ after) = (Uri.afterLast? mark before).map (· ++ after) := by
  cases hlast : Uri.afterLast? mark before with
  | some tail =>
    obtain ⟨htail, start, rfl⟩ := exists_of_afterLast? hlast
    rw [List.append_assoc, List.cons_append, afterLast?_mark (by simp [htail, h])]
    rfl
  | none =>
    have hbefore : mark ∉ before := by
      intro hm
      unfold Uri.afterLast? at hlast
      rw [if_pos (by simpa using hm)] at hlast
      cases hlast
    rw [afterLast?_unmarked (by simp [hbefore, h])]
    rfl

theorem dropWhile_unmarked (h : mark ∉ before) : before.dropWhile (· = mark) = before := by
  cases before with
  | nil => rfl
  | cons c rest =>
    have hc : c ≠ mark := by
      rintro rfl
      exact h List.mem_cons_self
    rw [List.dropWhile_cons_of_neg (by simpa using hc)]

end Cuts

/-! ## 3. Addresses -/

/-- **How an authority is written.** -/
structure Address where
  /-- What stands before the last at sign. -/
  user : Option (List Char) := none
  host : List Char
  /-- Whether the host stands in brackets, as one with colons must. -/
  bracketed : Bool := false
  /-- What stands after the colon that follows the host, which need not be a number. -/
  port : Option (List Char) := none
  user_plain : ∀ text ∈ user, ∀ c ∈ text, c ∉ ['/', '?', '#']
  host_plain : ∀ c ∈ host, c ∉ ['/', '?', '#', '@', '[', ']'] ∧ (c = ':' → bracketed = true)
  port_plain : ∀ text ∈ port, ∀ c ∈ text, c ∉ ['/', '?', '#', '@', '[', ']', ':']

namespace Address

/-- The host, in its brackets if it has any. -/
def hostWritten (address : Address) : List Char :=
  if address.bracketed then '[' :: (address.host ++ [']']) else address.host

/-- The host and the port. -/
def place (address : Address) : List Char :=
  address.hostWritten ++ (address.port.map (':' :: ·)).getD []

def written (address : Address) : List Char :=
  (address.user.map (· ++ ['@'])).getD [] ++ address.place

/-- The authority. -/
def text (address : Address) : String := String.ofList address.written

/-- The URL of a scheme names an address: it stands between the scheme, in whatever case, and the path. -/
def Names (url : String) (scheme : String) (address : Address) : Prop :=
  ∃ start rest, url.toList = start ++ "://".toList ++ address.written ++ rest ∧
    start.map Char.toLower = scheme.toList ∧ ∀ c ∈ rest.head?, c ∈ ['/', '?', '#']

section Parts

variable (address : Address)

theorem hostWritten_of_bracketed (h : address.bracketed = true) :
    address.hostWritten = '[' :: (address.host ++ [']']) := if_pos h

theorem hostWritten_of_plain (h : address.bracketed = false) : address.hostWritten = address.host :=
  if_neg (by simp [h])

theorem notMem_host {c : Char} (h : c ∈ ['/', '?', '#', '@', '[', ']']) : c ∉ address.host :=
  fun hm => (address.host_plain c hm).1 h

theorem colon_notMem_host (h : address.bracketed = false) : ':' ∉ address.host := by
  intro hm
  rw [(address.host_plain _ hm).2 rfl] at h
  cases h

theorem notMem_port {c : Char} (h : c ∈ ['/', '?', '#', '@', '[', ']', ':']) {text : List Char}
    (htext : address.port = some text) : c ∉ text :=
  fun hm => address.port_plain text htext c hm h

theorem notMem_place {c : Char} (h : c ∈ ['/', '?', '#', '@', '[', ']'])
    (hbracket : address.bracketed = true → c ∉ ['[', ']']) : c ∉ address.place := by
  have hhost := address.notMem_host h
  have hcolon : c ≠ ':' := by
    rintro rfl
    exact absurd h (by decide)
  unfold place
  rw [List.mem_append, not_or]
  constructor
  · cases hb : address.bracketed with
    | true =>
      rw [address.hostWritten_of_bracketed hb]
      have hnot := hbracket hb
      simp only [List.mem_cons, List.not_mem_nil, or_false, not_or] at hnot
      simp [hnot, hhost]
    | false =>
      rw [address.hostWritten_of_plain hb]
      exact hhost
  · cases hp : address.port with
    | none => simp
    | some text =>
      have hport := address.notMem_port (c := c) (by simp at h ⊢; tauto) hp
      simpa [hcolon] using hport

/-- **An authority is cut after its user.** -/
theorem afterUser : (Uri.afterLast? '@' address.written).getD address.written = address.place := by
  have hat : '@' ∉ address.place := address.notMem_place (by decide) fun _ => by decide
  unfold written
  cases address.user with
  | none =>
    rw [Option.map_none, Option.getD_none, List.nil_append, afterLast?_unmarked hat, Option.getD_none]
  | some user =>
    have hcut : (((some user).map (· ++ ['@'])).getD [] ++ address.place : List Char) =
        user ++ '@' :: address.place := by simp
    rw [hcut, afterLast?_mark hat, Option.getD_some]

theorem takeWhile_place (h : address.bracketed = false) :
    address.place.takeWhile (· ≠ ':') = address.host := by
  have hcolon := address.colon_notMem_host h
  unfold place
  rw [address.hostWritten_of_plain h]
  cases address.port with
  | none => exact (congrArg _ (List.append_nil _)).trans (takeWhile_unmarked hcolon)
  | some text => exact takeWhile_mark hcolon

theorem host_text : Uri.host address.text = String.ofList address.hostWritten := by
  unfold Uri.host text
  rw [String.toList_ofList]
  dsimp only
  rw [address.afterUser]
  cases hb : address.bracketed with
  | true =>
    have hplace : address.place =
        '[' :: address.host ++ ']' :: (address.port.map (':' :: ·)).getD [] := by
      unfold place
      rw [address.hostWritten_of_bracketed hb]
      simp
    have hbracket : ']' ∉ '[' :: address.host := by
      simpa using address.notMem_host (c := ']') (by decide)
    have hhost : address.place.takeWhile (· ≠ ']') = '[' :: address.host := by
      rw [hplace]
      exact takeWhile_mark hbracket
    rw [hplace, List.cons_append]
    show String.ofList (List.takeWhile _ ('[' :: (address.host ++ _)) ++ [']']) = _
    rw [← List.cons_append, ← hplace, hhost, address.hostWritten_of_bracketed hb]
    rfl
  | false =>
    split
    · rename_i rest hplace
      have hbracket : '[' ∉ address.place := address.notMem_place (by decide) fun h => by
        rw [hb] at h
        cases h
      rw [hplace] at hbracket
      exact absurd List.mem_cons_self hbracket
    · rw [address.takeWhile_place hb, address.hostWritten_of_plain hb]

/-- **The host to dial is the host**, without its brackets. -/
theorem trimBrackets_host :
    ClientBuilder.trimBrackets (Uri.host address.text) = String.ofList address.host := by
  have hopen := address.notMem_host (c := '[') (by decide)
  have hclose := address.notMem_host (c := ']') (by decide)
  have hend : address.host.reverse.dropWhile (· = ']') = address.host.reverse :=
    dropWhile_unmarked (by simpa using hclose)
  rw [address.host_text]
  unfold ClientBuilder.trimBrackets
  rw [String.toList_ofList]
  dsimp only
  cases hb : address.bracketed with
  | true =>
    have hstart : (address.host ++ [']']).dropWhile (· = '[') = address.host ++ [']'] :=
      dropWhile_unmarked (by simpa using hopen)
    rw [address.hostWritten_of_bracketed hb, List.dropWhile_cons_of_pos (by decide), hstart,
      List.reverse_append, List.reverse_singleton, List.singleton_append,
      List.dropWhile_cons_of_pos (by decide), hend, List.reverse_reverse]
  | false =>
    rw [address.hostWritten_of_plain hb, dropWhile_unmarked hopen, hend, List.reverse_reverse]

/-- **The port is the port**, if it is a number. -/
theorem port?_text : Uri.port? address.text = address.port.bind Uri.portNumber? := by
  unfold Uri.port? text
  rw [String.toList_ofList]
  cases hp : address.port with
  | some text =>
    have hcolon := address.notMem_port (c := ':') (by decide) hp
    have hcut : address.written =
        ((address.user.map (· ++ ['@'])).getD [] ++ address.hostWritten) ++ ':' :: text := by
      unfold written place
      rw [hp]
      simp
    rw [hcut, afterLast?_mark hcolon]
  | none =>
    -- what follows a colon of the host or of the user goes on to the bracket or to the at sign
    have htail : ∀ (before after : List Char) (c : Char), ':' ∉ after → c ∈ after → c ≠ '+' →
        c.isDigit = false → (Uri.afterLast? ':' (before ++ after)).bind Uri.portNumber? = none := by
      intro before after c hcolon hm hplus hdigit
      rw [afterLast?_append hcolon]
      cases Uri.afterLast? ':' before with
      | none => rfl
      | some tail => exact portNumber?_eq_none (List.mem_append_right _ hm) hplus hdigit
    rw [Option.bind_none]
    unfold written place
    rw [hp, Option.map_none, Option.getD_none, List.append_nil]
    cases hb : address.bracketed with
    | true =>
      rw [address.hostWritten_of_bracketed hb, ← List.cons_append, ← List.append_assoc]
      exact htail _ [']'] ']' (by decide) (by decide) (by decide) (by decide)
    | false =>
      have hcolon := address.colon_notMem_host hb
      rw [address.hostWritten_of_plain hb]
      cases address.user with
      | none =>
        rw [Option.map_none, Option.getD_none, List.nil_append, afterLast?_unmarked hcolon]
        rfl
      | some user =>
        rw [Option.map_some, Option.getD_some, List.append_assoc]
        exact htail user (['@'] ++ address.host) '@' (by simpa using hcolon) (by simp) (by decide)
          (by decide)

/-- **The host whose credentials are looked up is the host**, if there is no user and the port is a number. -/
theorem hostOf_text (huser : address.user = none)
    (hport : ∀ text ∈ address.port, ∃ n, Spells text n ∧ n < 65536) :
    CredentialTable.hostOf address.text = String.ofList address.host := by
  have hwritten : address.written = address.place := by
    unfold written
    rw [huser, Option.map_none, Option.getD_none, List.nil_append]
  unfold CredentialTable.hostOf text
  rw [String.toList_ofList, hwritten]
  cases hb : address.bracketed with
  | true =>
    have hclose := address.notMem_host (c := ']') (by decide)
    have hplace : address.place =
        '[' :: (address.host ++ ']' :: (address.port.map (':' :: ·)).getD []) := by
      unfold place
      rw [address.hostWritten_of_bracketed hb]
      simp
    rw [hplace]
    show (if (address.host ++ ']' :: _).contains ']' = true then
      String.ofList ((address.host ++ ']' :: _).takeWhile (· ≠ ']')) else _) = _
    rw [if_pos (by simp), takeWhile_mark hclose]
  | false =>
    have hcolon := address.colon_notMem_host hb
    split
    · rename_i rest hplace
      have hbracket : '[' ∉ address.place := address.notMem_place (by decide) fun h => by
        rw [hb] at h
        cases h
      rw [hplace] at hbracket
      exact absurd List.mem_cons_self hbracket
    · unfold place
      rw [address.hostWritten_of_plain hb]
      cases hp : address.port with
      | none =>
        rw [Option.map_none, Option.getD_none, List.append_nil, afterLast?_unmarked hcolon]
      | some text =>
        obtain ⟨n, hn⟩ := hport text hp
        rw [Option.map_some, Option.getD_some,
          afterLast?_mark (address.notMem_port (c := ':') (by decide) hp)]
        dsimp only
        have hlength : (address.host ++ ':' :: text).length - text.length - 1 =
            address.host.length := by
          rw [List.length_append, List.length_cons]
          omega
        rw [hlength, List.take_left, portNumber?_eq_some.2 hn]
        rw [if_pos (by simpa using hcolon)]

end Parts

end Address

/-! ## 4. Taking a URL apart -/

namespace Uri

/-- **What a text is taken apart into**: nothing with a scheme, or a scheme and an authority. -/
theorem ofText?_cases {url : String} {uri : Uri} (h : ofText? url = some uri) :
    (uri.scheme = none ∧ (url = "*" ∨ url.toList.head? = some '/' ∨ url.toList.length = 1 ∨
      leading url.toList = .bare)) ∨
    ∃ name rest authority tail, leading url.toList = .scheme name rest ∧
      splitAuthority? rest = some (authority, tail) ∧ uri.scheme = some name ∧
      uri.authority = some (String.ofList authority) := by
  unfold ofText? at h
  split at h
  · cases h
  split at h
  · rename_i hstar
    cases h
    exact .inl ⟨rfl, .inl hstar⟩
  dsimp only at h
  split at h
  · rename_i hslash
    obtain ⟨_, -, rfl⟩ := Option.map_eq_some_iff.1 h
    exact .inl ⟨rfl, .inr (.inl hslash)⟩
  split at h
  · cases h
  · rename_i hbare
    split at h
    · cases h
      refine .inl ⟨rfl, .inr (.inr ?_)⟩
      split at hbare
      · exact .inl ‹_›
      · exact .inr hbare
    · cases h
  · rename_i name rest hscheme
    obtain ⟨⟨authority, tail⟩, hsplit, h⟩ := Option.bind_eq_some_iff.1 h
    dsimp only at h
    split at h
    · cases h
    · obtain ⟨_, -, h⟩ := Option.bind_eq_some_iff.1 h
      cases h
      refine .inr ⟨name, rest, authority, tail, ?_, hsplit, rfl, rfl⟩
      split at hscheme
      · cases hscheme
      · exact hscheme

theorem splitAuthority?_eq_some {text authority tail : List Char}
    (h : splitAuthority? text = some (authority, tail)) :
    authority = text.takeWhile (fun c => !endsAuthority c) ∧
      tail = text.dropWhile (fun c => !endsAuthority c) ∧
      ∃ seen, authority.foldlM Seen.step? {} = some seen ∧ seen.opened = seen.closed ∧
        seen.colons ≤ 1 := by
  unfold splitAuthority? at h
  obtain ⟨seen, hseen, h⟩ := Option.bind_eq_some_iff.1 h
  split at h
  · cases h
  · rename_i hclosed
    cases h
    simp only [not_or, ne_eq, not_not, not_lt] at hclosed
    exact ⟨rfl, rfl, seen, hseen, hclosed.1, hclosed.2.1⟩

theorem leading_of_scheme {scheme : String} (hscheme : scheme = "http" ∨ scheme = "https")
    {start : List Char} (h : start.map Char.toLower = scheme.toList) (body : List Char) :
    leading (start ++ "://".toList ++ body) = .scheme scheme body := by
  have hlower : (start ++ "://".toList ++ body).map Char.toLower =
      scheme.toList ++ "://".toList ++ body.map Char.toLower := by
    rw [List.map_append, List.map_append, h]
    rfl
  have hlength : start.length = scheme.toList.length := by
    rw [← h, List.length_map]
  unfold leading
  dsimp only
  rw [hlower]
  rcases hscheme with rfl | rfl
  · rw [if_pos (by rfl), List.drop_left' (by simpa using hlength)]
  · rw [if_neg (by simp [List.isPrefixOf]), if_pos (by rfl), List.drop_left' (by simpa using hlength)]

end Uri

namespace Address

variable {url scheme : String} {address : Address}

theorem notMem_written (address : Address) {c : Char} (h : c ∈ ['/', '?', '#']) :
    c ∉ address.written := by
  have hplace : c ∉ address.place := by
    refine address.notMem_place (by simp at h ⊢; tauto) fun _ hm => ?_
    simp only [List.mem_cons, List.not_mem_nil, or_false] at hm
    rcases hm with rfl | rfl <;> exact absurd h (by decide)
  unfold written
  rw [List.mem_append, not_or]
  refine ⟨?_, hplace⟩
  cases huser : address.user with
  | none => simp
  | some user =>
    have hplain : c ∉ user := fun hm => address.user_plain user huser c hm h
    have hat : c ≠ '@' := by
      rintro rfl
      exact absurd h (by decide)
    simp [hplain, hat]

theorem takeWhile_written (address : Address) {rest : List Char}
    (h : ∀ c ∈ rest.head?, c ∈ ['/', '?', '#']) :
    (address.written ++ rest).takeWhile (fun c => !Uri.endsAuthority c) = address.written := by
  have hin : ∀ c ∈ address.written, (!Uri.endsAuthority c) = true := by
    intro c hm
    have hslash := address.notMem_written (c := '/') (by decide)
    have hquery := address.notMem_written (c := '?') (by decide)
    have hmark := address.notMem_written (c := '#') (by decide)
    unfold Uri.endsAuthority
    simp only [Bool.not_eq_true', Bool.or_eq_false_iff, decide_eq_false_iff_not]
    refine ⟨⟨?_, ?_⟩, ?_⟩ <;> rintro rfl <;> contradiction
  rw [List.takeWhile_append_of_pos hin]
  cases rest with
  | nil => rw [List.takeWhile_nil, List.append_nil]
  | cons c rest =>
    have hc := h c rfl
    have hends : ¬(!Uri.endsAuthority c) = true := by
      simp only [List.mem_cons, List.not_mem_nil, or_false] at hc
      rcases hc with rfl | rfl | rfl <;> decide
    rw [List.takeWhile_cons_of_neg (p := fun c => !Uri.endsAuthority c) hends, List.append_nil]

/-- **Taking a URL apart finds the authority it names**, if it finds anything. -/
theorem Names.ofText? (h : Names url scheme address) (hscheme : scheme = "http" ∨ scheme = "https")
    {uri : Uri} (huri : Uri.ofText? url = some uri) :
    uri.scheme = some scheme ∧ uri.authority = some address.text := by
  obtain ⟨start, rest, hurl, hstart, hrest⟩ := h
  rw [List.append_assoc] at hurl
  have hleading := Uri.leading_of_scheme hscheme hstart (address.written ++ rest)
  rw [← hurl] at hleading
  have hletters : ∃ c tail, start = c :: tail ∧ c.toLower = 'h' := by
    cases start with
    | nil => rcases hscheme with rfl | rfl <;> cases hstart
    | cons c tail =>
      refine ⟨c, tail, rfl, ?_⟩
      rcases hscheme with rfl | rfl <;> exact (List.cons.inj hstart).1
  rcases Uri.ofText?_cases huri with ⟨-, hother⟩ | ⟨name, body, authority, tail, hcut, hsplit, hname, htext⟩
  · obtain ⟨c, tail, rfl, hc⟩ := hletters
    rcases hother with rfl | hslash | hone | hbare
    · simp at hurl
    · rw [hurl, List.cons_append, List.cons_append, List.head?_cons] at hslash
      cases hslash
      exact absurd hc (by decide)
    · rw [hurl] at hone
      simp at hone
    · rw [hleading] at hbare
      cases hbare
  · rw [hleading] at hcut
    cases hcut
    obtain ⟨rfl, -, -⟩ := Uri.splitAuthority?_eq_some hsplit
    rw [hname, htext, address.takeWhile_written hrest]
    exact ⟨rfl, rfl⟩

end Address

/-! ## 5. What is found is an address -/

namespace Uri

/-- One more character counts if it is a bracket, or a colon that stands behind the user and the brackets. -/
theorem Seen.step?_counts {seen next : Seen} {c : Char} (h : seen.step? c = some next) :
    next.opened.toNat = seen.opened.toNat + (if c = '[' then 1 else 0) ∧
      next.closed.toNat = seen.closed.toNat + (if c = ']' then 1 else 0) ∧
      (c ≠ '@' → c ≠ ']' → next.colons = seen.colons + if c = ':' then 1 else 0) := by
  unfold Seen.step? at h
  dsimp only at h
  split at h
  · rename_i hc
    subst hc
    split at h
    · cases h
      simp
    · cases h
  split at h
  · rename_i hc
    subst hc
    split at h
    · cases h
    · rename_i hopen
      cases h
      simp only [Bool.or_eq_true, not_or, Bool.not_eq_true] at hopen
      simp [hopen.2]
  split at h
  · rename_i hc
    subst hc
    split at h
    · cases h
    · rename_i hclose
      cases h
      simp only [Bool.or_eq_true, not_or, Bool.not_eq_true, Bool.not_eq_true'] at hclose
      simp [hclose.2]
  split at h
  · rename_i hc
    subst hc
    cases h
    simp
  split at h
  · rename_i hc
    subst hc
    cases h
    simp
  split at h
  · cases h
    simp [*]
  · cases h

theorem foldlM_counts {text : List Char} {seen last : Seen}
    (h : text.foldlM Seen.step? seen = some last) :
    last.opened.toNat = seen.opened.toNat + text.count '[' ∧
      last.closed.toNat = seen.closed.toNat + text.count ']' ∧
      ('@' ∉ text → ']' ∉ text → last.colons = seen.colons + text.count ':') := by
  induction text generalizing seen with
  | nil =>
    cases h
    simp
  | cons c text ih =>
    rw [List.foldlM_cons] at h
    obtain ⟨next, hstep, hrest⟩ := Option.bind_eq_some_iff.1 h
    obtain ⟨hopened, hclosed, hcolons⟩ := Seen.step?_counts hstep
    obtain ⟨hopened', hclosed', hcolons'⟩ := ih hrest
    simp only [List.count_cons, beq_iff_eq]
    refine ⟨by omega, by omega, fun hat hbracket => ?_⟩
    have hhere := hcolons (fun heq => hat (heq ▸ List.mem_cons_self)) fun heq =>
      hbracket (heq ▸ List.mem_cons_self)
    have hlater := hcolons' (fun hm => hat (List.mem_cons_of_mem _ hm)) fun hm =>
      hbracket (List.mem_cons_of_mem _ hm)
    omega

theorem eq_of_toLower {c d : Char} (h : c.toLower = d) (hd : d.isLower = false) : c = d := by
  unfold Char.toLower at h
  split at h
  · rename_i hcapital
    have hlow := UInt32.le_iff_toNat_le.1 hcapital.1
    have hhigh := UInt32.le_iff_toNat_le.1 hcapital.2
    simp only [Char.reduceVal, UInt32.reduceToNat] at hlow hhigh
    have hval : d.val.toNat = c.val.toNat + 32 := by
      rw [← h]
      show (c.val + 32).toNat = _
      rw [UInt32.toNat_add]
      simp only [UInt32.reduceToNat]
      omega
    have hlower : d.isLower = true := by
      unfold Char.isLower
      simp only [Bool.and_eq_true, decide_eq_true_eq, ge_iff_le, UInt32.le_iff_toNat_le, hval,
        Char.reduceVal, UInt32.reduceToNat]
      omega
    rw [hd] at hlower
    cases hlower
  · exact h

theorem exists_of_prefix {chars : List Char} (start : List Char)
    (h : (start ++ "://".toList).isPrefixOf (chars.map Char.toLower) = true) :
    ∃ written, chars = written ++ "://".toList ++ chars.drop (start.length + 3) ∧
      written.map Char.toLower = start := by
  obtain ⟨tail, htail⟩ := List.isPrefixOf_iff_prefix.1 h
  obtain ⟨head, rest, rfl, hhead, -⟩ := List.map_eq_append_iff.1 htail.symm
  obtain ⟨written, mark, rfl, hwritten, hmark⟩ := List.map_eq_append_iff.1 hhead
  have hsame : mark = "://".toList := by
    refine Eq.trans ?_ hmark
    refine (List.map_id mark).symm.trans (List.map_congr_left fun c hc => ?_)
    have hm : c.toLower ∈ "://".toList := hmark ▸ List.mem_map_of_mem hc
    have hnot : c.toLower.isLower = false := by
      generalize c.toLower = d at hm
      simp only [String.reduceToList, List.mem_cons, List.not_mem_nil, or_false] at hm
      rcases hm with rfl | rfl | rfl <;> decide
    exact eq_of_toLower rfl hnot
  have hlength : (written ++ mark).length = start.length + 3 := by
    rw [List.length_append, hsame, ← hwritten, List.length_map]
    rfl
  refine ⟨written, ?_, hwritten⟩
  rw [← hlength, List.drop_left, hsame]

theorem exists_of_leading {chars rest : List Char} {scheme : String}
    (h : leading chars = .scheme scheme rest) (hscheme : scheme = "http" ∨ scheme = "https") :
    ∃ start, chars = start ++ "://".toList ++ rest ∧ start.map Char.toLower = scheme.toList := by
  unfold leading at h
  dsimp only at h
  split at h
  · rename_i hprefix
    cases h
    exact exists_of_prefix "http".toList hprefix
  split at h
  · rename_i hprefix
    cases h
    exact exists_of_prefix "https".toList hprefix
  split at h
  · rename_i tail hrest
    split at h
    · cases h
    split at h
    · cases h
    cases h
    refine ⟨chars.takeWhile isSchemeChar, ?_, ?_⟩
    · have hcut := List.takeWhile_append_dropWhile (p := isSchemeChar) (l := chars)
      rw [hrest] at hcut
      rw [List.append_assoc]
      exact hcut.symm
    · have hname : chars.takeWhile isSchemeChar = "http".toList ∨
          chars.takeWhile isSchemeChar = "https".toList := by
        rcases hscheme with hs | hs
        · exact .inl (by rw [← hs, String.toList_ofList])
        · exact .inr (by rw [← hs, String.toList_ofList])
      rw [String.toList_ofList]
      rcases hname with hn | hn <;> rw [hn] <;> rfl
  · cases h

theorem exists_start {url scheme : String} {uri : Uri} (huri : ofText? url = some uri)
    (hname : uri.scheme = some scheme) (hscheme : scheme = "http" ∨ scheme = "https") :
    ∃ start body, url.toList = start ++ "://".toList ++ body ∧
      start.map Char.toLower = scheme.toList := by
  rcases ofText?_cases huri with ⟨hnone, -⟩ | ⟨name, body, authority, tail, hcut, -, hname', -⟩
  · rw [hnone] at hname
    cases hname
  · obtain rfl := Option.some.inj (hname'.symm.trans hname)
    obtain ⟨start, hurl, hstart⟩ := exists_of_leading hcut hscheme
    exact ⟨start, body, hurl, hstart⟩

end Uri

namespace Address

theorem Names.scheme_eq {url name scheme : String} {address : Address} {uri : Uri}
    (h : Names url name address) (hcolon : ':' ∉ name.toList) (huri : Uri.ofText? url = some uri)
    (hscheme : uri.scheme = some scheme) (hknown : scheme = "http" ∨ scheme = "https") :
    scheme = name := by
  obtain ⟨start, rest, hurl, hstart, -⟩ := h
  obtain ⟨other, body, hurl', hother⟩ := Uri.exists_start huri hscheme hknown
  have hcut : ∀ {before after : List Char} {text : String}, ':' ∉ text.toList →
      before.map Char.toLower = text.toList →
      (before ++ "://".toList ++ after).takeWhile (· ≠ ':') = before := by
    intro before after text htext hbefore
    have hmark : ':' ∉ before := fun hm => htext (hbefore ▸ List.mem_map_of_mem (f := Char.toLower) hm)
    rw [List.append_assoc]
    exact takeWhile_mark hmark
  have hplain : ':' ∉ scheme.toList := by
    rcases hknown with rfl | rfl <;> decide +kernel
  have hsame : start = other := by
    rw [List.append_assoc] at hurl
    rw [← hcut hcolon hstart, ← hurl, hurl', hcut hplain hother]
  rw [hsame, hother] at hstart
  exact String.toList_inj.1 hstart

/-- **Brackets are where they belong**: behind the user there are none, or they stand around the host. -/
def InPlace (authority : List Char) : Prop :=
  ∀ user place, authority = place ∨ authority = user ++ '@' :: place → '@' ∉ place →
    ('[' ∉ place ∧ ']' ∉ place) ∨
      ∃ host tail, place = '[' :: (host ++ ']' :: tail) ∧ ∀ c ∈ tail.head?, c = ':'

theorem exists_place {place : List Char} {before seen : Uri.Seen}
    (hseen : place.foldlM Uri.Seen.step? before = some seen) (hcolons : seen.colons ≤ 1)
    (hclean : ∀ c ∈ place, c ∉ ['/', '?', '#', '@'])
    (hbrackets : ('[' ∉ place ∧ ']' ∉ place) ∨
      ∃ host tail, place = '[' :: (host ++ ']' :: tail) ∧ ∀ c ∈ tail.head?, c = ':') :
    ∃ address : Address, address.user = none ∧ address.place = place := by
  have hat : '@' ∉ place := fun hm => hclean _ hm (by decide)
  have hwithout : ∀ c ∈ place, c ≠ '[' → c ≠ ']' → c ∉ ['/', '?', '#', '@', '[', ']'] := by
    intro c hm hopen hclose
    have hc := hclean c hm
    simp only [List.mem_cons, List.not_mem_nil, or_false, not_or] at hc ⊢
    tauto
  rcases hbrackets with ⟨hopen, hclose⟩ | ⟨host, tail, rfl, htail⟩
  · obtain ⟨-, -, hcount⟩ := Uri.foldlM_counts hseen
    have hone := hcount hat hclose
    have hplain : ∀ c ∈ place, c ∉ ['/', '?', '#', '@', '[', ']'] := fun c hm =>
      hwithout c hm (fun heq => hopen (heq ▸ hm)) fun heq => hclose (heq ▸ hm)
    by_cases hcolon : ':' ∈ place
    · obtain ⟨host, port, rfl⟩ := List.append_of_mem hcolon
      rw [List.count_append, List.count_cons_self] at hone
      have hhost : ':' ∉ host := List.count_eq_zero.1 (by omega)
      have hport : ':' ∉ port := List.count_eq_zero.1 (by omega)
      refine ⟨⟨none, host, false, some port, by simp, fun c hm => ⟨?_, ?_⟩, fun text htext c hm => ?_⟩,
        rfl, rfl⟩
      · exact hplain c (List.mem_append_left _ hm)
      · rintro rfl
        exact absurd hm hhost
      · cases htext
        have hc := hplain c (List.mem_append_right _ (List.mem_cons_of_mem _ hm))
        have hne : c ≠ ':' := fun heq => hport (heq ▸ hm)
        simp only [List.mem_cons, List.not_mem_nil, or_false, not_or] at hc ⊢
        tauto
    · refine ⟨⟨none, place, false, none, by simp, fun c hm => ⟨hplain c hm, ?_⟩, by simp⟩, rfl, ?_⟩
      · rintro rfl
        exact absurd hm hcolon
      · exact List.append_nil place
  · have hsplit : ('[' :: (host ++ ']' :: tail) : List Char) = ('[' :: (host ++ [']'])) ++ tail := by simp
    obtain ⟨hopened, hclosed, -⟩ := Uri.foldlM_counts hseen
    have honeOpen := Bool.toNat_le seen.opened
    have honeClose := Bool.toNat_le seen.closed
    simp only [List.count_cons, List.count_append, beq_iff_eq, Char.reduceEq, if_true, if_false]
      at hopened hclosed
    have hhostOpen : '[' ∉ host := List.count_eq_zero.1 (by omega)
    have htailOpen : '[' ∉ tail := List.count_eq_zero.1 (by omega)
    have hhostClose : ']' ∉ host := List.count_eq_zero.1 (by omega)
    have htailClose : ']' ∉ tail := List.count_eq_zero.1 (by omega)
    rw [hsplit, List.foldlM_append] at hseen
    obtain ⟨mid, -, hseenTail⟩ := Option.bind_eq_some_iff.1 hseen
    have hone := (Uri.foldlM_counts hseenTail).2.2 (fun hm => hat (by simp [hm])) htailClose
    have hhost : ∀ c ∈ host, c ∉ ['/', '?', '#', '@', '[', ']'] ∧ (c = ':' → true = true) := by
      intro c hm
      refine ⟨hwithout c (by simp [hm]) ?_ ?_, fun _ => rfl⟩
      · rintro rfl
        exact hhostOpen hm
      · rintro rfl
        exact hhostClose hm
    cases tail with
    | nil => exact ⟨⟨none, host, true, none, by simp, hhost, by simp⟩, rfl, by simp [place, hostWritten]⟩
    | cons c port =>
      obtain rfl : c = ':' := htail c rfl
      rw [List.count_cons_self] at hone
      have hport : ':' ∉ port := List.count_eq_zero.1 (by omega)
      refine ⟨⟨none, host, true, some port, by simp, hhost, fun text htext c hm => ?_⟩, rfl, ?_⟩
      · cases htext
        have hin := List.mem_cons_of_mem ':' hm
        have hc := hwithout c (by simp [hm]) (fun heq => htailOpen (heq ▸ hin))
          fun heq => htailClose (heq ▸ hin)
        have hne : c ≠ ':' := fun heq => hport (heq ▸ hm)
        simp only [List.mem_cons, List.not_mem_nil, or_false, not_or] at hc ⊢
        tauto
      · simp [place, hostWritten]

/-- An authority that is accepted is an address if its brackets are in place. -/
theorem exists_written {authority : List Char} {seen : Uri.Seen}
    (hseen : authority.foldlM Uri.Seen.step? {} = some seen) (hcolons : seen.colons ≤ 1)
    (hplain : ∀ c ∈ authority, c ∉ ['/', '?', '#']) (hplace : InPlace authority) :
    ∃ address : Address, address.written = authority := by
  have hclean : ∀ place : List Char, place ⊆ authority → '@' ∉ place →
      ∀ c ∈ place, c ∉ ['/', '?', '#', '@'] := by
    intro place hsub hat c hm
    have hc := hplain c (hsub hm)
    have hne : c ≠ '@' := fun heq => hat (heq ▸ hm)
    simp only [List.mem_cons, List.not_mem_nil, or_false, not_or] at hc ⊢
    tauto
  cases hlast : Uri.afterLast? '@' authority with
  | none =>
    have hat : '@' ∉ authority := by
      intro hm
      unfold Uri.afterLast? at hlast
      rw [if_pos (by simpa using hm)] at hlast
      cases hlast
    obtain ⟨address, huser, hwritten⟩ := exists_place hseen hcolons
      (hclean authority (List.Subset.refl _) hat) (hplace [] authority (.inl rfl) hat)
    refine ⟨address, ?_⟩
    unfold written
    rw [huser, hwritten]
    rfl
  | some place =>
    obtain ⟨hat, user, rfl⟩ := exists_of_afterLast? hlast
    have hsplit : user ++ '@' :: place = (user ++ ['@']) ++ place := by simp
    rw [hsplit, List.foldlM_append] at hseen
    obtain ⟨mid, -, hseenPlace⟩ := Option.bind_eq_some_iff.1 hseen
    obtain ⟨address, -, hwritten⟩ := exists_place hseenPlace hcolons
      (hclean place (fun c hm => by simp [hm]) hat) (hplace user place (.inr rfl) hat)
    have huser : ∀ text ∈ some user, ∀ c ∈ text, c ∉ ['/', '?', '#'] := by
      intro text htext c hm
      cases htext
      exact hplain c (List.mem_append_left _ hm)
    refine ⟨{ address with user := some user, user_plain := huser }, ?_⟩
    show (user ++ ['@']) ++ address.place = _
    rw [hwritten, ← hsplit]

/-- **A URL that is taken apart names an address**, if the brackets of its authority are in place. -/
theorem exists_names {url scheme text : String} {uri : Uri} (huri : Uri.ofText? url = some uri)
    (hscheme : scheme = "http" ∨ scheme = "https") (hname : uri.scheme = some scheme)
    (htext : uri.authority = some text) (hplace : InPlace text.toList) :
    ∃ address : Address, address.Names url scheme ∧ address.text = text := by
  rcases Uri.ofText?_cases huri with ⟨hnone, -⟩ | ⟨name, body, authority, tail, hcut, hsplit, hname', htext'⟩
  · rw [hnone] at hname
    cases hname
  · obtain rfl := Option.some.inj (hname'.symm.trans hname)
    obtain rfl := Option.some.inj (htext'.symm.trans htext)
    obtain ⟨start, hurl, hstart⟩ := Uri.exists_of_leading hcut hscheme
    obtain ⟨hauthority, htail, seen, hseen, -, hcolons⟩ := Uri.splitAuthority?_eq_some hsplit
    rw [String.toList_ofList] at hplace
    have hplain : ∀ c ∈ authority, c ∉ ['/', '?', '#'] := by
      intro c hm hbad
      rw [hauthority] at hm
      have hc := List.mem_takeWhile_imp hm
      simp only [List.mem_cons, List.not_mem_nil, or_false] at hbad
      rcases hbad with rfl | rfl | rfl <;> exact absurd hc (by decide)
    obtain ⟨address, hwritten⟩ := exists_written hseen hcolons hplain hplace
    refine ⟨address, ⟨start, tail, ?_, hstart, fun c hc => ?_⟩, congrArg String.ofList hwritten⟩
    · rw [hurl, hwritten, hauthority, htail, List.append_assoc _ (List.takeWhile _ _),
        List.takeWhile_append_dropWhile]
    · have hends : Uri.endsAuthority c = true := by
        have hhead := List.head?_dropWhile_not (fun c => !Uri.endsAuthority c) body
        rw [← htail] at hhead
        cases hcase : tail.head? with
        | none =>
          rw [hcase] at hc
          cases hc
        | some d =>
          rw [hcase] at hc hhead
          cases hc
          simpa using hhead
      unfold Uri.endsAuthority at hends
      simpa [or_assoc] using hends

end Address

end Admission.Net
