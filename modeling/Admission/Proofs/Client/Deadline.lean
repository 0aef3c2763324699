import Admission.Client.Exchange
import Admission.Proofs.Client.Built
import Admission.Proofs.Text.Joined

/-!
# Requests tell the deadline

A request has a hint of its deadline as the last parameter of its query.  The hint is put behind the path that
is configured, whatever text that is, and the text is taken apart as a URI only then.  Taking apart cuts a text
at its first question mark and its first number sign (`Uri.cut`, `Uri.splitPath?_eq_some_iff`); so what the
request says can be read off the path (`Client.cut_targetText`): the path and the query that were configured,
and behind them the hint, unless it stands behind a number sign.
-/

namespace Admission

/-! ## 1. Whole seconds -/

/-- **The whole seconds that are at least a span** are those from its seconds rounded up on. -/
theorem Time.Span.secondsUp_le_iff (span : Time.Span) (n : Nat) :
    span.secondsUp ≤ n ↔ span.nanoseconds ≤ n * 1000000000 := by
  unfold Time.Span.secondsUp Time.Span.subsecond Time.Span.seconds
  split <;> omega

/-! ## 2. Taking a path apart -/

namespace Net.Uri

/-- A text that starts with a path, cut into the path and the query, the fragment left off. -/
def cut (text : List Char) : List Char × Option (List Char) :=
  (text.takeWhile fun c => c ≠ '?' && c ≠ '#',
    match text.dropWhile fun c => c ≠ '?' && c ≠ '#' with
    | '?' :: rest => some (rest.takeWhile (· ≠ '#'))
    | _ => none)

/-- A path and a query put together. -/
def glue : List Char × Option (List Char) → List Char
  | (path, none) => path
  | (path, some query) => path ++ '?' :: query

/-- **All characters may stand where they do.** -/
def IsLegal (parts : List Char × Option (List Char)) : Prop :=
  (∀ c ∈ parts.1, isPathChar c = true) ∧ ∀ query ∈ parts.2, ∀ c ∈ query, isQueryChar c = true

section Cut

variable {text path query behind : List Char}

theorem isLegal_path : IsLegal (path, none) ↔ path.all isPathChar = true := by
  simp [IsLegal]

theorem isLegal_query : IsLegal (path, some query) ↔
    path.all isPathChar = true ∧ query.all isQueryChar = true := by
  simp [IsLegal]

theorem takeWhile_path (h : '?' ∉ path ∧ '#' ∉ path) (rest : List Char)
    (hrest : ∀ c ∈ rest.head?, c = '?' ∨ c = '#') :
    (path ++ rest).takeWhile (fun c => c ≠ '?' && c ≠ '#') = path ∧
      (path ++ rest).dropWhile (fun c => c ≠ '?' && c ≠ '#') = rest := by
  have hall : ∀ c ∈ path, (decide (c ≠ '?') && decide (c ≠ '#')) = true := by
    intro c hc
    have hquestion : c ≠ '?' := fun heq => h.1 (heq ▸ hc)
    have hnumber : c ≠ '#' := fun heq => h.2 (heq ▸ hc)
    simp [hquestion, hnumber]
  rw [List.takeWhile_append_of_pos hall, List.dropWhile_append_of_pos hall]
  cases rest with
  | nil => exact ⟨List.append_nil path, rfl⟩
  | cons c rest =>
    rcases hrest c rfl with rfl | rfl
    all_goals
      rw [List.takeWhile_cons_of_neg (by decide), List.dropWhile_cons_of_neg (by decide), List.append_nil]
      exact ⟨rfl, rfl⟩

theorem cut_unmarked (h : '?' ∉ path ∧ '#' ∉ path) : cut path = (path, none) := by
  obtain ⟨htake, hdrop⟩ := takeWhile_path h [] nofun
  rw [List.append_nil] at htake hdrop
  rw [cut, htake, hdrop]

theorem cut_question (h : '?' ∉ path ∧ '#' ∉ path) (behind : List Char) :
    cut (path ++ '?' :: behind) = (path, some (behind.takeWhile (· ≠ '#'))) := by
  obtain ⟨htake, hdrop⟩ := takeWhile_path h ('?' :: behind) (by simp)
  rw [cut, htake, hdrop]
  rfl

theorem cut_number (h : '?' ∉ path ∧ '#' ∉ path) (behind : List Char) :
    cut (path ++ '#' :: behind) = (path, none) := by
  obtain ⟨htake, hdrop⟩ := takeWhile_path h ('#' :: behind) (by simp)
  rw [cut, htake, hdrop]
  rfl

/-- **How a text is cut**: it has no marks, or it goes on behind the first one. -/
theorem exists_cut (text : List Char) : ∃ path, ('?' ∉ path ∧ '#' ∉ path) ∧
    (text = path ∨ ∃ behind, text = path ++ '?' :: behind ∨ text = path ++ '#' :: behind) := by
  induction text with
  | nil => exact ⟨[], by simp, .inl rfl⟩
  | cons c rest ih =>
    by_cases hquestion : c = '?'
    · exact ⟨[], by simp, .inr ⟨rest, .inl (by simp [hquestion])⟩⟩
    by_cases hnumber : c = '#'
    · exact ⟨[], by simp, .inr ⟨rest, .inr (by simp [hnumber])⟩⟩
    obtain ⟨path, hpath, hrest⟩ := ih
    refine ⟨c :: path, by simp [hpath, Ne.symm hquestion, Ne.symm hnumber], ?_⟩
    rcases hrest with rfl | ⟨behind, rfl | rfl⟩
    · exact .inl rfl
    · exact .inr ⟨behind, .inl rfl⟩
    · exact .inr ⟨behind, .inr rfl⟩

/-- What was cut comes from before the first number sign, and all of that is in it. -/
theorem glue_cut (text : List Char) : glue (cut text) = text.takeWhile (· ≠ '#') := by
  obtain ⟨path, hpath, rfl | ⟨behind, rfl | rfl⟩⟩ := exists_cut text
  · rw [cut_unmarked hpath, takeWhile_unmarked hpath.2, glue]
  · have hhead : ∀ c ∈ path ++ ['?'], decide (c ≠ '#') = true := by
      intro c hc
      refine decide_eq_true fun heq => ?_
      subst heq
      simp [hpath.2] at hc
    have htake : (path ++ ['?'] ++ behind).takeWhile (· ≠ '#') = path ++ ['?'] ++ behind.takeWhile (· ≠ '#') :=
      List.takeWhile_append_of_pos hhead
    rw [List.append_assoc, List.append_assoc] at htake
    rw [cut_question hpath, glue]
    exact htake.symm
  · rw [cut_number hpath, takeWhile_mark hpath.2, glue]

theorem cut_glue_cut (text : List Char) : cut (glue (cut text)) = cut text := by
  obtain ⟨path, hpath, rfl | ⟨behind, rfl | rfl⟩⟩ := exists_cut text
  · rw [cut_unmarked hpath, glue, cut_unmarked hpath]
  · rw [cut_question hpath, glue, cut_question hpath, List.takeWhile_idem]
  · rw [cut_number hpath, glue, cut_unmarked hpath]

/-- **A path is taken apart by cutting it**, if all characters may stand where they do. -/
theorem splitPath?_eq_some_iff {parts : String × Option String} :
    splitPath? text = some parts ↔
      IsLegal (cut text) ∧ parts = (String.ofList (cut text).1, (cut text).2.map String.ofList) := by
  obtain ⟨path, hpath, rfl | ⟨behind, rfl | rfl⟩⟩ := exists_cut text
  · obtain ⟨htake, hdrop⟩ := takeWhile_path hpath [] nofun
    rw [List.append_nil] at htake hdrop
    rw [cut_unmarked hpath, splitPath?, htake, hdrop, isLegal_path]
    cases hlegal : text.all isPathChar <;> simp [eq_comm]
  · obtain ⟨htake, hdrop⟩ := takeWhile_path hpath ('?' :: behind) (by simp)
    rw [cut_question hpath, splitPath?, htake, hdrop, isLegal_query]
    show (if (!path.all isPathChar) = true then none
      else if (behind.takeWhile (· ≠ '#')).all isQueryChar = true then
        some (String.ofList path, some (String.ofList (behind.takeWhile (· ≠ '#'))))
      else none) = some parts ↔ _
    generalize behind.takeWhile (· ≠ '#') = query
    cases hlegal : path.all isPathChar
    · simp
    · cases hquery : query.all isQueryChar
      · simp
      · simpa using eq_comm
  · obtain ⟨htake, hdrop⟩ := takeWhile_path hpath ('#' :: behind) (by simp)
    rw [cut_number hpath, splitPath?, htake, hdrop, isLegal_path]
    cases hlegal : path.all isPathChar <;> simp [eq_comm]

/-- **What a text that starts with a slash is taken apart into**: nothing but its path and its query. -/
theorem ofText?_slash {url : String} (hslash : url.toList.head? = some '/') {uri : Uri} :
    ofText? url = some uri ↔ (url.utf8ByteSize ≤ maxLength ∧ IsLegal (cut url.toList)) ∧
      uri = { path := String.ofList (cut url.toList).1, query := (cut url.toList).2.map String.ofList } := by
  have hne : url ≠ "" := by
    rintro rfl
    cases hslash
  have hstar : url ≠ "*" := by
    rintro rfl
    cases hslash
  unfold ofText?
  by_cases hlength : maxLength < url.utf8ByteSize
  · rw [if_pos (.inl hlength)]
    constructor
    · rintro ⟨⟩
    · rintro ⟨⟨hle, -⟩, -⟩
      omega
  · rw [if_neg (not_or.2 ⟨hlength, hne⟩), if_neg hstar]
    dsimp only
    rw [if_pos hslash, Option.map_eq_some_iff]
    simp only [splitPath?_eq_some_iff]
    constructor
    · rintro ⟨_, ⟨hlegal, rfl⟩, rfl⟩
      exact ⟨⟨Nat.le_of_not_lt hlength, hlegal⟩, rfl⟩
    · rintro ⟨⟨-, hlegal⟩, rfl⟩
      exact ⟨_, ⟨hlegal, rfl⟩, rfl⟩

theorem target_eq_glue (parts : List Char × Option (List Char)) :
    target { path := String.ofList parts.1, query := parts.2.map String.ofList } =
      String.ofList (glue parts) := by
  obtain ⟨path, _ | query⟩ := parts
  · rfl
  · show String.ofList path ++ "?" ++ String.ofList query = String.ofList (path ++ '?' :: query)
    rw [← String.toList_inj]
    simp

theorem number_notMem_cut (text : List Char) : '#' ∉ (cut text).1 := by
  obtain ⟨path, hpath, rfl | ⟨behind, rfl | rfl⟩⟩ := exists_cut text
  · rw [cut_unmarked hpath]
    exact hpath.2
  · rw [cut_question hpath]
    exact hpath.2
  · rw [cut_number hpath]
    exact hpath.2

theorem number_notMem_path {url : String} {uri : Uri} (h : ofText? url = some uri) : '#' ∉ uri.path.toList := by
  have hsplit : ∀ {text : List Char} {parts : String × Option String}, splitPath? text = some parts →
      '#' ∉ parts.1.toList := by
    intro text parts hparts
    rw [(splitPath?_eq_some_iff.1 hparts).2, String.toList_ofList]
    exact number_notMem_cut text
  unfold ofText? at h
  split at h
  · cases h
  split at h
  · cases h
    decide
  dsimp only at h
  split at h
  · obtain ⟨parts, hparts, rfl⟩ := Option.map_eq_some_iff.1 h
    exact hsplit hparts
  split at h
  · cases h
  · split at h
    · cases h
      exact List.not_mem_nil
    · cases h
  · obtain ⟨⟨authority, tail⟩, -, h⟩ := Option.bind_eq_some_iff.1 h
    dsimp only at h
    split at h
    · cases h
    · obtain ⟨parts, hparts, h⟩ := Option.bind_eq_some_iff.1 h
      cases h
      show '#' ∉ (if parts.1 = "" then "/" else parts.1).toList
      split
      · decide
      · exact hsplit hparts

end Cut

end Net.Uri

/-! ## 3. What a request says -/

namespace Client

open Net.Uri (cut glue IsLegal)

/-- A path from its slash on, which is put in front if it is missing. -/
def slashed (path : String) : List Char :=
  if path.toList.head? = some '/' then path.toList else '/' :: path.toList

/-- The hint of a deadline in so many seconds. -/
def hint (seconds : Nat) : List Char := s!"timeout={seconds}s".toList

/-- The parameters of a query. -/
def parameters (query : Option (List Char)) : List (List Char) :=
  (query.map fun text => text.splitOn '&').getD []

/-- A query with one more parameter at its end. -/
def withParameter (parameter : List Char) : Option (List Char) → List Char
  | none => parameter
  | some query => query ++ '&' :: parameter

theorem parameters_withParameter {parameter : List Char} (h : '&' ∉ parameter) (query : Option (List Char)) :
    parameters (some (withParameter parameter query)) = parameters query ++ [parameter] := by
  cases query with
  | none => exact List.splitOn_eq_singleton h
  | some query =>
    show (query ++ '&' :: parameter).splitOn '&' = query.splitOn '&' ++ [parameter]
    rw [List.splitOn_append_cons_self, List.splitOn_eq_singleton h]

section Slashed

variable (path : String)

theorem head?_slashed : (slashed path).head? = some '/' := by
  unfold slashed
  split
  · assumption
  · rfl

theorem mem_slashed {c : Char} (hc : c ≠ '/') : c ∈ slashed path ↔ c ∈ path.toList := by
  unfold slashed
  split
  · rfl
  · exact List.mem_cons.trans (or_iff_right hc)

end Slashed

theorem toList_hint (seconds : Nat) :
    hint seconds = "timeout=".toList ++ Nat.toDigits 10 seconds ++ ['s'] := by
  unfold hint
  rw [String.toList_append, String.toList_append, toList_toString]
  rfl

theorem isQueryChar_hint {c : Char} {seconds : Nat} (h : c ∈ hint seconds) :
    Net.Uri.isQueryChar c = true ∧ c ≠ '&' ∧ c ≠ '#' := by
  rw [toList_hint, List.mem_append, List.mem_append] at h
  rcases h with (hname | hdigit) | hunit
  · have hall : "timeout=".toList.all fun d => Net.Uri.isQueryChar d && d != '&' && d != '#' := by
      decide +kernel
    simpa [and_assoc] using List.all_eq_true.1 hall c hname
  · have hd := Nat.isDigit_of_mem_toDigits (by decide) (by decide) hdigit
    refine ⟨?_, fun heq => absurd (heq ▸ hd) (by decide), fun heq => absurd (heq ▸ hd) (by decide)⟩
    have hrange : 48 ≤ c.toNat ∧ c.toNat ≤ 57 := by
      unfold Char.isDigit at hd
      simp only [Bool.and_eq_true, decide_eq_true_eq] at hd
      exact ⟨UInt32.le_iff_toNat_le.1 hd.1, UInt32.le_iff_toNat_le.1 hd.2⟩
    unfold Net.Uri.isQueryChar
    simp only [Bool.or_eq_true, Bool.and_eq_true, decide_eq_true_eq]
    omega
  · rw [List.mem_singleton.1 hunit]
    decide

theorem toList_mark (text : String) : (if text.toList.contains '?' then "&" else "?").toList =
    [if '?' ∈ text.toList then '&' else '?'] := by
  by_cases hquestion : '?' ∈ text.toList
  · rw [if_pos (by simpa using hquestion), if_pos hquestion]
    rfl
  · rw [if_neg (by simpa using hquestion), if_neg hquestion]
    rfl

theorem toList_targetText (path : String) (timeout : Time.Span) :
    (targetText path timeout).toList =
      slashed path ++ (if '?' ∈ path.toList then '&' else '?') :: hint timeout.secondsUp := by
  unfold targetText
  dsimp only
  generalize hfull : (if path.toList.head? = some '/' then path else "/" ++ path) = full
  have hslashed : full.toList = slashed path := by
    unfold slashed
    rw [← hfull]
    split
    · rfl
    · exact String.toList_append
  have hquestion : '?' ∈ full.toList ↔ '?' ∈ path.toList := by
    rw [hslashed, mem_slashed path (by decide)]
  generalize hmark : (if full.toList.contains '?' = true then "&" else "?") = mark
  have hone : mark.toList = [if '?' ∈ path.toList then '&' else '?'] := by
    rw [← hmark, toList_mark]
    simp only [hquestion]
  show (full ++ mark ++ "timeout=" ++ toString timeout.secondsUp ++ "s").toList = _
  rw [String.append_assoc, String.append_assoc, String.append_assoc, String.toList_append,
    String.toList_append, hslashed, hone]
  unfold hint
  rw [← String.append_assoc]
  rfl

/-- **What becomes of a parameter that is put behind a text**: it is the last one of the query, unless it
stands behind a number sign. -/
theorem cut_withParameter {parameter : List Char} (h : '#' ∉ parameter) (text : List Char) :
    cut (text ++ (if '?' ∈ text then '&' else '?') :: parameter) =
      ((cut text).1, if '#' ∈ text then (cut text).2 else some (withParameter parameter (cut text).2)) := by
  obtain ⟨path, hpath, rfl | ⟨behind, rfl | rfl⟩⟩ := Net.Uri.exists_cut text
  · rw [if_neg hpath.1, if_neg hpath.2, Net.Uri.cut_question hpath, Net.Uri.cut_unmarked hpath,
      takeWhile_unmarked h, withParameter]
  · have hquestion : '?' ∈ path ++ '?' :: behind := by simp
    have hnumber : '#' ∈ path ++ '?' :: behind ↔ '#' ∈ behind := by simp [hpath.2]
    rw [if_pos hquestion, List.append_assoc, List.cons_append, Net.Uri.cut_question hpath,
      Net.Uri.cut_question hpath]
    by_cases hin : '#' ∈ behind
    · obtain ⟨query, fragment, rfl, hquery⟩ := List.eq_append_cons_of_mem hin
      rw [if_pos (hnumber.2 hin), List.append_assoc, List.cons_append, takeWhile_mark hquery,
        takeWhile_mark hquery]
    · rw [if_neg (hnumber.not.2 hin), takeWhile_unmarked hin, withParameter,
        takeWhile_unmarked (by simp [hin, h])]
  · have hnumber : '#' ∈ path ++ '#' :: behind := by simp
    rw [if_pos hnumber, List.append_assoc, List.cons_append, Net.Uri.cut_number hpath,
      Net.Uri.cut_number hpath]

/-- The hint may stand in a query, so that it is the path that decides. -/
theorem isLegal_withParameter {parameter : List Char} (h : ∀ c ∈ parameter, Net.Uri.isQueryChar c = true)
    {path : List Char} {query : Option (List Char)} :
    IsLegal (path, some (withParameter parameter query)) ↔ IsLegal (path, query) := by
  have hmark : Net.Uri.isQueryChar '&' = true := by decide
  cases query with
  | none => simpa [IsLegal, withParameter] using fun _ => h
  | some query =>
    have hboth : (∀ c ∈ query ++ '&' :: parameter, Net.Uri.isQueryChar c = true) ↔
        ∀ c ∈ query, Net.Uri.isQueryChar c = true := by
      simp only [List.forall_mem_append, List.forall_mem_cons]
      exact ⟨fun hall => hall.1, fun hquery => ⟨hquery, hmark, h⟩⟩
    simpa [IsLegal, withParameter] using fun _ => hboth

theorem path_of_buildUrl {builder : ClientBuilder} {table : CredentialTable} {url : String}
    {caBundle : List UInt8} {client : Client} (h : builder.buildUrl table url caBundle = .ok client) :
    ∃ uri, Net.Uri.ofText? url = some uri ∧ client.path = uri.path := by
  unfold ClientBuilder.buildUrl at h
  cases huri : Net.Uri.ofText? url with
  | none =>
    rw [huri] at h
    cases h
  | some uri =>
    rw [huri] at h
    dsimp only at h
    refine ⟨uri, rfl, ?_⟩
    split at h
    · obtain ⟨_, ⟨⟩, h⟩ := bind_eq_ok.1 h
      split at h
      · obtain ⟨_, -, hclient⟩ := bind_eq_ok.1 h
        cases hclient
        rfl
      · cases h
    · split at h
      · obtain ⟨_, ⟨⟩, h⟩ := bind_eq_ok.1 h
        split at h
        · cases h
          rfl
        · cases h
      · cases h

theorem number_notMem_of_build {builder : ClientBuilder} {config : ClientConfig} {client : Client}
    (h : builder.build config = .ok client) (hservice : config.service = none) : '#' ∉ client.path.toList := by
  obtain ⟨table, -, ⟨service, hsome, -⟩ | ⟨-, url, -, hbuild⟩⟩ := ClientBuilder.build_eq_ok h
  · rw [hservice] at hsome
    cases hsome
  · obtain ⟨uri, huri, hpath⟩ := path_of_buildUrl hbuild
    rw [hpath]
    exact Net.Uri.number_notMem_path huri

section Sent

variable (path : String) (timeout : Time.Span)

/-- The parts of a request, by those of the path. -/
theorem cut_targetText : cut (targetText path timeout).toList =
    ((cut (slashed path)).1,
      if '#' ∈ path.toList then (cut (slashed path)).2
      else some (withParameter (hint timeout.secondsUp) (cut (slashed path)).2)) := by
  have hparts := cut_withParameter (fun hm => (isQueryChar_hint hm).2.2 rfl : '#' ∉ hint timeout.secondsUp)
    (slashed path)
  simp only [mem_slashed path (show '?' ≠ '/' by decide), mem_slashed path (show '#' ≠ '/' by decide)] at hparts
  rw [toList_targetText, hparts]

theorem isLegal_targetText :
    IsLegal (cut (targetText path timeout).toList) ↔ IsLegal (cut (slashed path)) := by
  rw [cut_targetText]
  split
  · rfl
  · exact isLegal_withParameter fun c hc => (isQueryChar_hint hc).1

theorem head?_targetText : (targetText path timeout).toList.head? = some '/' := by
  rw [toList_targetText, List.head?_append, head?_slashed]
  rfl

/-- **Which requests are written, and how.** -/
theorem requestTarget?_eq_some_iff {target : String} : requestTarget? path timeout = some target ↔
    ((targetText path timeout).utf8ByteSize ≤ Net.Uri.maxLength ∧ IsLegal (cut (slashed path))) ∧
      target = String.ofList (glue (cut (targetText path timeout).toList)) := by
  unfold requestTarget?
  rw [Option.map_eq_some_iff]
  simp only [Net.Uri.ofText?_slash (head?_targetText path timeout), isLegal_targetText]
  constructor
  · rintro ⟨_, ⟨hlegal, rfl⟩, rfl⟩
    exact ⟨hlegal, Net.Uri.target_eq_glue _⟩
  · rintro ⟨hlegal, rfl⟩
    exact ⟨_, ⟨hlegal, rfl⟩, Net.Uri.target_eq_glue _⟩

/-- Who reads a target as a URI finds the path and the query that were put into it. -/
theorem ofText?_requestTarget {target : String} (h : requestTarget? path timeout = some target) :
    Net.Uri.ofText? target = some
      { path := String.ofList (cut (targetText path timeout).toList).1
        query := (cut (targetText path timeout).toList).2.map String.ofList } := by
  obtain ⟨⟨hsize, hlegal⟩, rfl⟩ := (requestTarget?_eq_some_iff path timeout).1 h
  have hhead := head?_targetText path timeout
  rw [← isLegal_targetText path timeout] at hlegal
  generalize targetText path timeout = text at hsize hlegal hhead ⊢
  have hslash : (String.ofList (glue (cut text.toList))).toList.head? = some '/' := by
    rw [String.toList_ofList, Net.Uri.glue_cut]
    cases htext : text.toList with
    | nil =>
      rw [htext] at hhead
      cases hhead
    | cons c rest =>
      rw [htext] at hhead
      cases hhead
      rfl
  have hshort : (String.ofList (glue (cut text.toList))).utf8ByteSize ≤ text.utf8ByteSize := by
    have hcut := List.takeWhile_append_dropWhile (p := fun c => decide (c ≠ '#')) (l := text.toList)
    rw [Net.Uri.glue_cut]
    calc _ ≤ (String.ofList (text.toList.takeWhile (· ≠ '#')) ++
            String.ofList (text.toList.dropWhile (· ≠ '#'))).utf8ByteSize := by
          rw [String.utf8ByteSize_append]
          exact Nat.le_add_right _ _
      _ = text.utf8ByteSize := by
          rw [← String.ofList_append, hcut, String.ofList_toList]
  rw [Net.Uri.ofText?_slash hslash, String.toList_ofList, Net.Uri.cut_glue_cut]
  exact ⟨⟨hshort.trans hsize, hlegal⟩, rfl⟩

end Sent

/-- **A request tells the deadline**, as the last parameter of its query, in whole seconds: the least number of
them that is at least the time that is left for it.  It is written if all characters of the path may stand where
they do and the whole is not too long, and then says nothing else: its path is the one that was configured, from
a slash on, which is put in front only if it is missing, and the parameters before the hint are those that were
configured.

What is configured behind a number sign is not sent, however, and the hint stands there too then: where the path
has one, the request tells no deadline.  A URL has no such path, but that of a service may be any text.

The seconds are counted without a bound; they fit 64 bits up to a time of so many seconds. -/
theorem requests_tell_the_deadline (path : String) (timeout : Time.Span) :
    let seconds := timeout.secondsUp
    let configured := cut (slashed path)
    (∀ n, seconds ≤ n ↔ timeout.nanoseconds ≤ n * 1000000000) ∧
    (seconds < Width.count 64 ↔ timeout.nanoseconds ≤ (Width.count 64 - 1) * 1000000000) ∧
    ((∃ target, requestTarget? path timeout = some target) ↔
      (targetText path timeout).utf8ByteSize ≤ Net.Uri.maxLength ∧ IsLegal configured) ∧
    (∀ target, requestTarget? path timeout = some target →
      ∃ uri, Net.Uri.ofText? target = some uri ∧ uri.target = target ∧ uri.scheme = none ∧ uri.authority = none ∧
        uri.path.toList = configured.1 ∧
        ('#' ∉ path.toList →
          uri.query.map String.toList = some (withParameter (hint seconds) configured.2) ∧
          parameters (uri.query.map String.toList) = parameters configured.2 ++ [hint seconds]) ∧
        ('#' ∈ path.toList → uri.query.map String.toList = configured.2)) ∧
    ∀ (builder : ClientBuilder) (config : ClientConfig) (client : Client),
      builder.build config = .ok client → config.service = none → client.path = path →
        '#' ∉ path.toList := by
  intro seconds configured
  refine ⟨timeout.secondsUp_le_iff, ?_, ?_, ?_, ?_⟩
  · rw [← timeout.secondsUp_le_iff]
    exact Nat.lt_iff_le_pred (Nat.two_pow_pos 64)
  · simp only [requestTarget?_eq_some_iff]
    exact ⟨fun ⟨_, hlegal, _⟩ => hlegal, fun hlegal => ⟨_, hlegal, rfl⟩⟩
  · intro target htarget
    have hread := ofText?_requestTarget path timeout htarget
    obtain ⟨-, rfl⟩ := (requestTarget?_eq_some_iff path timeout).1 htarget
    have hquery : ((cut (targetText path timeout).toList).2.map String.ofList).map String.toList =
        (cut (targetText path timeout).toList).2 := by
      rw [Option.map_map]
      simp [Function.comp_def]
    refine ⟨_, hread, Net.Uri.target_eq_glue _, rfl, rfl, ?_, fun hnumber => ?_, fun hnumber => ?_⟩
    · dsimp only
      rw [cut_targetText, String.toList_ofList]
    · dsimp only
      rw [hquery, cut_targetText]
      dsimp only
      rw [if_neg hnumber]
      exact ⟨rfl, parameters_withParameter (fun hm => (isQueryChar_hint hm).2.1 rfl) _⟩
    · dsimp only
      rw [hquery, cut_targetText]
      exact if_pos hnumber
  · rintro builder config client hbuild hservice rfl
    exact number_notMem_of_build hbuild hservice

/-- A path without a slash and with a query, and two and a half seconds. -/
theorem requests_tell_the_deadline_hook :
    requestTarget? "hook?x=1" (.ofMilliseconds 2500) = some "/hook?x=1&timeout=3s" ∧
    ∃ uri, Net.Uri.ofText? "/hook?x=1&timeout=3s" = some uri ∧ uri.path.toList = "/hook".toList ∧
      parameters (uri.query.map String.toList) = ["x=1".toList, "timeout=3s".toList] := by
  have htarget : requestTarget? "hook?x=1" (.ofMilliseconds 2500) = some "/hook?x=1&timeout=3s" := by
    decide +kernel
  obtain ⟨-, -, -, hsays, -⟩ := requests_tell_the_deadline "hook?x=1" (.ofMilliseconds 2500)
  obtain ⟨uri, hread, -, -, -, hpath, hhint, -⟩ := hsays _ htarget
  obtain ⟨-, hparameters⟩ := hhint (by decide +kernel)
  have hconfigured : cut (slashed "hook?x=1") = ("/hook".toList, some "x=1".toList) := by decide +kernel
  have hseconds : hint (Time.Span.ofMilliseconds 2500).secondsUp = "timeout=3s".toList := by decide +kernel
  rw [hconfigured] at hpath hparameters
  rw [hseconds] at hparameters
  exact ⟨htarget, uri, hread, hpath, hparameters⟩

/-- **A number sign in the path of a service takes the hint away**: the request is written, and has no query
at all. -/
theorem number_sign_takes_the_deadline :
    requestTarget? "/hook#part" (.ofMilliseconds 1500) = some "/hook" ∧
    Net.Uri.ofText? "/hook" = some { path := "/hook" } ∧
    ¬ ∀ (path : String) (timeout : Time.Span) (target : String), requestTarget? path timeout = some target →
      ∃ uri, Net.Uri.ofText? target = some uri ∧
        ∃ before, parameters (uri.query.map String.toList) = before ++ [hint timeout.secondsUp] := by
  have htarget : requestTarget? "/hook#part" (.ofMilliseconds 1500) = some "/hook" := by decide +kernel
  have hread : Net.Uri.ofText? "/hook" = some { path := "/hook" } := by decide +kernel
  refine ⟨htarget, hread, fun hall => ?_⟩
  obtain ⟨uri, huri, before, hlast⟩ := hall _ _ _ htarget
  rw [hread] at huri
  cases huri
  exact List.append_ne_nil_of_right_ne_nil before (List.cons_ne_nil _ _) hlast.symm

end Client

end Admission
