import Admission.Proofs.Client.Turns
import Mathlib.Data.List.Induction

/-!
# Where connections are

However posts on one client take turns, a connection is at one place at most: it is idle, or one post has it in
use (`Board.Sound`).  A turn moves connections in four ways (`PostStage.Carries`), so that where a connection is
after a turn goes by where it was (`Board.Sound.came`); the invariant follows from this alone.  Only what a post
has found open becomes idle, and posts that follow one another make do with one connection.

The other side numbers the connections, so it is assumed that those that were opened have different numbers.
-/

namespace Admission

variable {σ : Type} {client : Client} {network : Network σ} {posting : Posting} {postings : Nat → Posting}

/-! ## 1. Where a connection is -/

/-- **What a turn does to connections.** -/
inductive PostStage.Carries (stage : PostStage) (pool : Pool) (move : Move σ) : Prop where
  /-- A post keeps what it has, or loses it. -/
  | stays (samePool : move.pool = pool) (noneOpened : move.opened = none)
      (held : ∀ c, move.stage.held? = some c → stage.held? = some c)
      (tried : ∀ attempt ∈ move.tried, stage.held? = some attempt.connection)
      (stale : ∀ attempt ∈ move.tried, attempt.IsStale → move.stage.held? = none)
  /-- It takes the first of the idle connections. -/
  | took (connection : Connection) (first : pool = connection :: move.pool)
      (noneOpened : move.opened = none) (noneTried : move.tried = none)
      (held : move.stage.held? = some connection)
  /-- It opens one. -/
  | opened (connection : Connection) (samePool : move.pool = pool)
      (isOpened : move.opened = some connection)
      (held : ∀ c, move.stage.held? = some c → c = connection)
      (tried : ∀ attempt ∈ move.tried, attempt.idle = false)
  /-- It makes the one it has idle. -/
  | putBack (connection : Connection) (result : Except ClientError (List UInt8))
      (returning : stage = .returning connection result) (first : move.pool = connection :: pool)
      (room : pool.length < Pool.limit) (noneOpened : move.opened = none) (noneTried : move.tried = none)
      (held : move.stage.held? = none)

theorem PostStage.Moves.carries {pool : Pool} {world : σ} {stage : PostStage} {move : Move σ}
    (h : stage.Moves client network posting pool world move) : stage.Carries pool move := by
  cases h with
  | took first => exact .took _ first rfl rfl rfl
  | unwritableFresh _ _ _ _ => exact .opened _ rfl rfl (by simp [PostStage.held?]) (by simp)
  | opened _ _ _ _ => exact .opened _ rfl rfl (by simp [PostStage.held?]) (by simp)
  | putBack room => exact .putBack _ _ rfl rfl room rfl rfl rfl
  | expired _ _ letGo => exact .stays rfl rfl (by simp [PostStage.held?]) letGo (by simp [PostStage.held?])
  | kept _ final _ =>
    refine .stays rfl rfl (by simp [PostStage.held?]) (by simp [PostStage.held?]) ?_
    rintro _ ⟨⟩ ⟨hidle, hstale⟩
    rw [final hidle] at hstale
    simp at hstale
  | malformed _ | started _ | foundNone _ | unready _ | unwritable _ _ | reused _ _ | unresolved _
  | undialled _ _ _ | canceled _ | silent _ | closed _ _ _ | letGo _ | rested =>
    exact .stays rfl rfl (by simp [PostStage.held?]) (by simp [PostStage.held?]) (by simp [PostStage.held?])

/-- Where a connection can be. -/
inductive Place where
  | idle
  | inUse (post : Nat)
  deriving DecidableEq

namespace Board

/-- A connection is at a place. -/
def Has (board : Board σ) (c : Connection) : Place → Prop
  | .idle => c ∈ board.pool
  | .inUse i => (board.stages i).held? = some c

/-- A connection that was opened and is nowhere now. -/
def Lost (board : Board σ) (c : Connection) : Prop := c ∈ board.opened ∧ ∀ place, ¬ board.Has c place

/-- **A connection is at one place at most, and a stale one is lost.** -/
structure Sound (board : Board σ) : Prop where
  few : board.pool.length ≤ Pool.limit
  distinct : board.pool.Nodup
  opened : ∀ c place, board.Has c place → c ∈ board.opened
  unique : ∀ c place place', board.Has c place → board.Has c place' → place = place'
  staleLost : ∀ i, ∀ attempt ∈ board.tries i, attempt.IsStale → board.Lost attempt.connection

theorem start_has {world : σ} {c : Connection} {place : Place} : ¬ (start world).Has c place := by
  cases place <;> simp [start, Has, PostStage.held?]

theorem start_sound (world : σ) : (start world).Sound where
  few := Nat.zero_le _
  distinct := .nil
  opened _ _ h := absurd h start_has
  unique _ _ _ h := absurd h start_has
  staleLost := by simp [start, tries]

theorem tries_after (board : Board σ) (i j : Nat) (move : Move σ) :
    (board.after i move).tries j = board.tries j ++ if j = i then move.tried.toList else [] := by
  by_cases hj : j = i
  · subst hj
    cases h : move.tried <;> simp [tries, after, h]
  · have hne : i ≠ j := fun h => hj h.symm
    cases h : move.tried <;> simp [tries, after, h, hj, hne]

variable {board : Board σ} {i : Nat} {move : Move σ} {c : Connection} {place : Place}

theorem mem_tries_after {j : Nat} {attempt : Attempt} (h : attempt ∈ (board.after i move).tries j) :
    attempt ∈ board.tries j ∨ (j = i ∧ attempt ∈ move.tried) := by
  rw [tries_after, List.mem_append] at h
  refine h.imp_right fun h => ?_
  by_cases hj : j = i
  · rw [if_pos hj] at h
    exact ⟨hj, by simpa using h⟩
  · simp [hj] at h

/-- A place after a turn: the idle connections, the post whose turn it was, or a place that the turn does not
touch. -/
theorem has_after (h : (board.after i move).Has c place) :
    (place = .idle ∧ c ∈ move.pool) ∨ (place = .inUse i ∧ move.stage.held? = some c) ∨
      (place ≠ .idle ∧ place ≠ .inUse i ∧ board.Has c place) := by
  cases place with
  | idle => exact .inl ⟨rfl, h⟩
  | inUse j =>
    by_cases hj : j = i
    · subst hj
      exact .inr (.inl ⟨rfl, by simpa [Has, after] using h⟩)
    · exact .inr (.inr ⟨by simp, by simpa using hj, by simpa [Has, after, hj] using h⟩)

/-- **A connection comes from one place, unless it has just been opened**: where it is now goes by where it
was. -/
theorem Sound.came (hsound : board.Sound) (hcarries : (board.stages i).Carries board.pool move) :
    ∃ moved : Connection → Place → Place, ∀ c place, (board.after i move).Has c place →
      (∃ before, board.Has c before ∧ moved c before = place) ∨
        (c ∈ move.opened ∧ place = .inUse i) := by
  cases hcarries with
  | stays samePool _ held _ _ =>
    refine ⟨fun _ place => place, fun c place h => .inl ⟨place, ?_, rfl⟩⟩
    rcases has_after h with ⟨rfl, hidle⟩ | ⟨rfl, hheld⟩ | ⟨-, -, hother⟩
    · rwa [samePool] at hidle
    · exact held c hheld
    · exact hother
  | took connection first _ _ held =>
    have hfirst : board.Has connection .idle := by simp [Has, first]
    have hdistinct := hsound.distinct
    rw [first, List.nodup_cons] at hdistinct
    refine ⟨fun c place => if c = connection then .inUse i else place, fun c place h => .inl ?_⟩
    rcases has_after h with ⟨rfl, hidle⟩ | ⟨rfl, hheld⟩ | ⟨hnotIdle, -, hother⟩
    · have hne : c ≠ connection := fun h => hdistinct.1 (h ▸ hidle)
      exact ⟨.idle, by simp [Has, first, hidle], by simp [hne]⟩
    · obtain rfl : connection = c := Option.some.inj (held.symm.trans hheld)
      exact ⟨.idle, hfirst, by simp⟩
    · have hne : c ≠ connection := by
        rintro rfl
        exact hnotIdle (hsound.unique c place .idle hother hfirst)
      exact ⟨place, hother, by simp [hne]⟩
  | opened connection samePool isOpened held _ =>
    refine ⟨fun _ place => place, fun c place h => ?_⟩
    rcases has_after h with ⟨rfl, hidle⟩ | ⟨rfl, hheld⟩ | ⟨-, -, hother⟩
    · rw [samePool] at hidle
      exact .inl ⟨.idle, hidle, rfl⟩
    · rw [held c hheld]
      exact .inr ⟨isOpened, rfl⟩
    · exact .inl ⟨place, hother, rfl⟩
  | putBack connection result returning first _ _ _ held =>
    have hmine : board.Has connection (.inUse i) := by simp [Has, returning, PostStage.held?]
    refine ⟨fun c place => if c = connection then .idle else place, fun c place h => .inl ?_⟩
    rcases has_after h with ⟨rfl, hidle⟩ | ⟨rfl, hheld⟩ | ⟨-, hnotMine, hother⟩
    · rw [first, List.mem_cons] at hidle
      rcases hidle with rfl | hidle
      · exact ⟨.inUse i, hmine, by simp⟩
      · exact ⟨.idle, hidle, by simp⟩
    · rw [held] at hheld
      cases hheld
    · have hne : c ≠ connection := by
        rintro rfl
        exact hnotMine (hsound.unique c place (.inUse i) hother hmine)
      exact ⟨place, hother, by simp [hne]⟩

variable (hsound : board.Sound) (hcarries : (board.stages i).Carries board.pool move)

include hsound hcarries

theorem Sound.lost_of_tried {attempt : Attempt} (htried : attempt ∈ move.tried)
    (hstale : attempt.IsStale) : (board.after i move).Lost attempt.connection := by
  cases hcarries with
  | stays samePool noneOpened held tried stale =>
    have hmine : board.Has attempt.connection (.inUse i) := tried attempt htried
    refine ⟨List.mem_append_left _ (hsound.opened _ _ hmine), fun place h => ?_⟩
    rcases has_after h with ⟨rfl, hidle⟩ | ⟨-, hheld⟩ | ⟨-, hnotMine, hother⟩
    · rw [samePool] at hidle
      cases hsound.unique _ .idle (.inUse i) hidle hmine
    · rw [stale attempt htried hstale] at hheld
      cases hheld
    · exact hnotMine (hsound.unique _ _ _ hother hmine)
  | opened connection samePool isOpened held tried =>
    exact absurd hstale.1 (by simp [tried attempt htried])
  | took connection first noneOpened noneTried held
  | putBack connection result returning first room noneOpened noneTried held =>
    rw [noneTried] at htried
    cases htried

variable (hnew : ∀ c ∈ move.opened, c ∉ board.opened)

include hnew

/-- **What is lost stays lost.** -/
theorem Lost.after (hlost : board.Lost c) : (board.after i move).Lost c := by
  obtain ⟨moved, hmoved⟩ := hsound.came hcarries
  refine ⟨List.mem_append_left _ hlost.1, fun place h => ?_⟩
  rcases hmoved c place h with ⟨before, hbefore, -⟩ | ⟨hopened, -⟩
  · exact hlost.2 before hbefore
  · exact hnew c hopened hlost.1

/-- **A turn keeps every connection at one place at most.** -/
theorem Sound.after : (board.after i move).Sound := by
  obtain ⟨moved, hmoved⟩ := hsound.came hcarries
  refine ⟨?_, ?_, ?_, ?_, ?_⟩
  · show move.pool.length ≤ Pool.limit
    have hfew := hsound.few
    cases hcarries with
    | stays samePool | opened _ samePool => rwa [samePool]
    | took connection first => rw [first, List.length_cons] at hfew; omega
    | putBack connection result returning first room => rw [first, List.length_cons]; exact room
  · show move.pool.Nodup
    have hdistinct := hsound.distinct
    cases hcarries with
    | stays samePool | opened _ samePool => rwa [samePool]
    | took connection first =>
      rw [first] at hdistinct
      exact hdistinct.of_cons
    | putBack connection result returning first =>
      rw [first, List.nodup_cons]
      refine ⟨fun hidle => ?_, hdistinct⟩
      cases hsound.unique connection .idle (.inUse i) hidle (by simp [Has, returning, PostStage.held?])
  · intro c place h
    rcases hmoved c place h with ⟨before, hbefore, -⟩ | ⟨hopened, -⟩
    · exact List.mem_append_left _ (hsound.opened c before hbefore)
    · exact List.mem_append_right _ (by simpa using hopened)
  · intro c place place' h h'
    rcases hmoved c place h with ⟨before, hbefore, rfl⟩ | ⟨hopened, rfl⟩ <;>
      rcases hmoved c place' h' with ⟨before', hbefore', rfl⟩ | ⟨hopened', rfl⟩
    · rw [hsound.unique c before before' hbefore hbefore']
    · exact absurd (hsound.opened c before hbefore) (hnew c hopened')
    · exact absurd (hsound.opened c before' hbefore') (hnew c hopened)
    · rfl
  · intro j attempt htried hstale
    rcases mem_tries_after htried with hbefore | ⟨-, hnow⟩
    · exact (hsound.staleLost j attempt hbefore hstale).after hsound hcarries hnew
    · exact hsound.lost_of_tried hcarries hnow hstale

end Board

namespace Client

theorem play_sound {turns : List (Turn σ)} {world : σ}
    (hnew : (client.play network postings turns (.start world)).opened.Nodup) :
    (client.play network postings turns (.start world)).Sound := by
  induction turns using List.reverseRecOn with
  | nil => exact Board.start_sound world
  | append_singleton turns turn ih =>
    rw [play_concat] at hnew ⊢
    cases turn with
    | other later =>
      obtain ⟨few, distinct, opened, unique, staleLost⟩ := ih hnew
      exact ⟨few, distinct, opened, unique, staleLost⟩
    | post i expired =>
      obtain ⟨hbefore, -, hapart⟩ := List.nodup_append.1 hnew
      refine (ih hbefore).after (moves_next ..).carries fun c hc hmem => ?_
      exact hapart c hmem c (by simpa using hc) rfl

end Client

/-! ## 2. What is put back, and when a connection is opened -/

namespace PostStage.Moves

variable {pool : Pool} {world : σ} {stage : PostStage} {move : Move σ}

/-- A post is about to put a connection back only after an answer on it, and if it is open then. -/
theorem open_of_returning {c : Connection} {result : Except ClientError (List UInt8)}
    (h : stage.Moves client network posting pool world move) (hstage : move.stage = .returning c result) :
    ∃ target idle request,
      stage = .asking target c idle request ∧ network.isClosed c move.world = false := by
  cases h with
  | kept _ _ isOpen =>
    cases hstage
    exact ⟨_, _, _, rfl, isOpen⟩
  | _ => cases hstage

theorem empty_of_dialling {target : String} (h : stage.Moves client network posting pool world move)
    (hstage : move.stage = .dialling target) : stage = .seeking target ∧ pool = [] := by
  cases h with
  | foundNone empty =>
    cases hstage
    exact ⟨rfl, empty⟩
  | _ => cases hstage

theorem returning_of_mem_pool {c : Connection} (h : stage.Moves client network posting pool world move)
    (hafter : c ∈ move.pool) (hbefore : c ∉ pool) : ∃ result, stage = .returning c result := by
  cases h.carries with
  | stays samePool | opened _ samePool => exact absurd (samePool ▸ hafter) hbefore
  | took connection first => exact absurd (first ▸ List.mem_cons_of_mem _ hafter) hbefore
  | putBack connection result returning first =>
    rw [first, List.mem_cons] at hafter
    obtain rfl := hafter.resolve_right hbefore
    exact ⟨result, returning⟩

end PostStage.Moves

namespace Client

variable (client network postings) in
/-- In some turn a post got its answer on the connection and found that it was open. -/
def FoundOpen (turns : List (Turn σ)) (world : σ) (i : Nat) (c : Connection) : Prop :=
  ∃ earlier expired target idle request, earlier ++ [.post i expired] <+: turns ∧
    (client.play network postings earlier (.start world)).stages i = .asking target c idle request ∧
    network.isClosed c
      (client.play network postings (earlier ++ [.post i expired]) (.start world)).world = false

variable {turns : List (Turn σ)} {turn : Turn σ} {world : σ} {i : Nat} {c : Connection}

theorem FoundOpen.append (h : client.FoundOpen network postings turns world i c) (more : List (Turn σ)) :
    client.FoundOpen network postings (turns ++ more) world i c := by
  obtain ⟨earlier, expired, target, idle, request, hearlier, hasking, hopen⟩ := h
  exact ⟨earlier, expired, target, idle, request, hearlier.trans (List.prefix_append _ _), hasking, hopen⟩

theorem foundOpen_of_returning {result : Except ClientError (List UInt8)}
    (h : (client.play network postings turns (.start world)).stages i = .returning c result) :
    client.FoundOpen network postings turns world i c := by
  induction turns using List.reverseRecOn with
  | nil => cases h
  | append_singleton turns turn ih =>
    rw [play_concat] at h
    cases turn with
    | other later => exact (ih h).append _
    | post j expired =>
      by_cases hij : i = j
      · subst hij
        obtain ⟨target, idle, request, hasking, hopen⟩ :=
          (moves_next client network (postings i) expired _ _ _).open_of_returning
            (by simpa [step, Board.after] using h)
        refine ⟨turns, expired, target, idle, request, List.prefix_refl _, hasking, ?_⟩
        rw [play_concat]
        exact hopen
      · exact (ih (by simpa [step, Board.after, hij] using h)).append _

/-- **What has become idle in a turn was found open.** -/
theorem foundOpen_of_mem_pool
    (hafter : c ∈ (client.play network postings (turns ++ [turn]) (.start world)).pool)
    (hbefore : c ∉ (client.play network postings turns (.start world)).pool) :
    ∃ i expired, turn = .post i expired ∧ client.FoundOpen network postings turns world i c := by
  rw [play_concat] at hafter
  cases turn with
  | other later => exact absurd hafter hbefore
  | post i expired =>
    obtain ⟨result, hreturning⟩ :=
      (moves_next client network (postings i) expired _ _ _).returning_of_mem_pool hafter hbefore
    exact ⟨i, expired, rfl, foundOpen_of_returning hreturning⟩

/-- **A post begins to dial only when nothing is idle.** -/
theorem empty_of_dialling {target : String}
    (hafter : (client.play network postings (turns ++ [turn]) (.start world)).stages i = .dialling target)
    (hbefore : (client.play network postings turns (.start world)).stages i ≠ .dialling target) :
    (client.play network postings turns (.start world)).pool = [] := by
  rw [play_concat] at hafter
  cases turn with
  | other later => exact absurd hafter hbefore
  | post j expired =>
    by_cases hij : i = j
    · subst hij
      exact ((moves_next client network (postings i) expired _ _ _).empty_of_dialling
        (by simpa [step, Board.after] using hafter)).2
    · exact absurd (by simpa [step, Board.after, hij] using hafter) hbefore

end Client

/-! ## 3. Posts that follow one another -/

/-- Whether a post has a connection or is about to open one. -/
def PostStage.isEngaged : PostStage → Bool
  | .waiting _ _ | .dialling _ | .asking _ _ _ _ | .returning _ _ => true
  | _ => false

theorem PostStage.isBusy_of_isEngaged {stage : PostStage} (h : stage.isEngaged = true) :
    stage.isBusy = true := by
  cases stage with
  | unstarted | seeking _ | ended _ => cases h
  | waiting _ _ | dialling _ | asking _ _ _ _ | returning _ _ => rfl

/-- **At most one connection is idle, and none while a post is engaged.** -/
structure Board.Thrifty (board : Board σ) : Prop where
  few : board.pool.length ≤ 1
  engaged : ∀ i, (board.stages i).isEngaged = true → board.pool = []

namespace PostStage.Moves

variable {pool : Pool} {world : σ} {stage : PostStage} {move : Move σ}

theorem pool_of_not_busy (h : stage.Moves client network posting pool world move)
    (hidle : stage.isBusy = false) : move.pool = pool := by
  cases h with
  | took _ | putBack _ => cases hidle
  | _ => rfl

/-- A turn leaves one idle connection at most, and none if the post is engaged after it. -/
theorem thrifty (h : stage.Moves client network posting pool world move) (hfew : pool.length ≤ 1)
    (hengaged : stage.isEngaged = true → pool = []) :
    move.pool.length ≤ 1 ∧ (move.stage.isEngaged = true → move.pool = []) := by
  cases h with
  | foundNone empty => exact ⟨hfew, fun _ => empty⟩
  | @took target connection rest first =>
    rw [first, List.length_cons] at hfew
    have hrest : rest = [] := List.length_eq_zero_iff.1 (by omega)
    exact ⟨by simp [hrest], fun _ => hrest⟩
  | putBack _ =>
    rw [hengaged rfl]
    exact ⟨Nat.le_refl 1, fun h => by cases h⟩
  | reused _ _ | opened _ _ _ _ | kept _ _ _ => exact ⟨hfew, fun _ => hengaged rfl⟩
  | _ => exact ⟨hfew, fun h => by cases h⟩

end PostStage.Moves

namespace Client

variable (client network postings) in
/-- At no time during some turns are two posts under way. -/
def OneAtATime (turns : List (Turn σ)) (board : Board σ) : Prop :=
  ∀ earlier, earlier <+: turns → ∀ i j,
    ((client.play network postings earlier board).stages i).isBusy = true →
    ((client.play network postings earlier board).stages j).isBusy = true → i = j

/-- **Posts that follow one another leave one idle connection at most**, if there was none at first. -/
theorem play_thrifty {turns : List (Turn σ)} {board : Board σ} (hnone : board.pool = [])
    (hone : client.OneAtATime network postings turns board) :
    (client.play network postings turns board).Thrifty := by
  induction turns using List.reverseRecOn with
  | nil => exact ⟨by simp [play, hnone], fun _ _ => hnone⟩
  | append_singleton turns turn ih =>
    obtain ⟨hfew, hengaged⟩ := ih fun earlier h => hone earlier (h.trans (List.prefix_append _ _))
    have hbefore := hone turns (List.prefix_append _ _)
    have hafter := hone (turns ++ [turn]) (List.prefix_refl _)
    rw [play_concat] at hafter ⊢
    cases turn with
    | other later => exact ⟨hfew, hengaged⟩
    | post i expired =>
      have hmoves := moves_next client network (postings i) expired
        (client.play network postings turns board).pool (client.play network postings turns board).world
        ((client.play network postings turns board).stages i)
      obtain ⟨hfewNow, hengagedNow⟩ := hmoves.thrifty hfew (hengaged i)
      refine ⟨hfewNow, fun j hj => ?_⟩
      by_cases hji : j = i
      · subst hji
        exact hengagedNow (by simpa [step, Board.after] using hj)
      -- Another post is engaged, so the one whose turn it was has not been under way.
      have hother : ((client.play network postings turns board).stages j).isEngaged = true := by
        simpa [step, Board.after, hji] using hj
      have hidle : ((client.play network postings turns board).stages i).isBusy = false := by
        rw [Bool.eq_false_iff]
        exact fun h => hji (hbefore j i (PostStage.isBusy_of_isEngaged hother) h)
      show (client.next network (postings i) expired _ _ _).pool = []
      rw [hmoves.pool_of_not_busy hidle]
      exact hengaged j hother

end Client

end Admission
