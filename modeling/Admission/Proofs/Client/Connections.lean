import Admission.Proofs.Client.Places

/-!
# Posts that share connections

What is known of a post goes by where it stands (`PostStage.Told`).  It goes on to another connection only from
one that was stale, so its request gets out once at most; and as long as the idle connections that it tried were
stale, it comes to what it would have come to without them (`Client.Unharmed`).  With what is known of the
connections, that is what sharing them amounts to (`posts_share_connections`).
-/

namespace Admission

variable {σ : Type} {client : Client} {network : Network σ} {posting : Posting} {postings : Nat → Posting}

/-! ## 1. What a post has tried -/

/-- The same other side, but in another state once a connection has been opened. -/
def Network.meanwhile (network : Network σ) (later : σ) : Network σ where
  dial endpoint tls world := ((network.dial endpoint tls world).1, later)
  ready := network.ready
  send := network.send
  isClosed := network.isClosed

namespace Client

variable (client network posting) in
/-- What a post with no idle connection comes to that dials at one time and asks at another. -/
def anew (now later : σ) : Except ClientError (List UInt8) :=
  (client.postBytes (network.meanwhile later) posting.body posting.timeout [] now).1

theorem connected_eq_ok {endpoint : Endpoint} {dialled : Dialled} {connection : Connection}
    {timeout : Time.Span} (h : client.connected endpoint timeout dialled = .ok connection) :
    dialled = .opened connection := by
  cases dialled with
  | opened opened => rw [Except.ok.inj h]
  | refused reason | unsecured reason | silence => cases h

section Anew

variable {target : String} (path : requestTarget? client.path posting.timeout = some target)
include path

theorem anew_unresolved {e : ClientError} (h : client.target.resolve = .error e) (now later : σ) :
    client.anew network posting now later = .error e := by
  simp [anew, postBytes, path, send, sendFresh, h]

variable {endpoint : Endpoint} {dialled : Dialled} {now next : σ}
  (resolve : client.target.resolve = .ok endpoint)
  (dial : network.dial endpoint client.tls now = (dialled, next))
include resolve dial

theorem anew_undialled {e : ClientError} (later : σ)
    (h : client.connected endpoint posting.timeout dialled = .error e) :
    client.anew network posting now later = .error e := by
  cases dialled with
  | opened connection => cases h
  | refused reason | unsecured reason | silence =>
    obtain rfl := Except.error.inj h
    simp [anew, postBytes, path, send, sendFresh, Network.meanwhile, resolve, dial]

variable {connection : Connection}
  (isConnected : client.connected endpoint posting.timeout dialled = .ok connection)
include isConnected

theorem anew_unwritable (h : client.request? target posting.body = none) (later : σ) :
    client.anew network posting now later =
      .error (.invalidRequest "failed to parse header value") := by
  obtain rfl := connected_eq_ok isConnected
  simp [anew, postBytes, path, send, sendFresh, Network.meanwhile, resolve, dial, h]

theorem anew_sent {request : HttpRequest} (h : client.request? target posting.body = some request)
    {later last : σ} {sent : Sent} (answer : network.send connection request later = (sent, last)) :
    client.anew network posting now later = received posting.timeout sent := by
  obtain rfl := connected_eq_ok isConnected
  cases sent <;>
    simp [anew, postBytes, path, send, sendFresh, Network.meanwhile, resolve, dial, h, answer, received]

end Anew

variable (client network posting) in
/-- **A post that tried no idle connections but stale ones** has run out of time, or it comes to what it would
have come to without them, with the other side in states in which the post has found it. -/
def Unharmed (found : σ → Prop) (tries : List Attempt) (result : Except ClientError (List UInt8)) : Prop :=
  (∀ attempt ∈ tries, attempt.idle = true → attempt.IsStale) →
    result = .error (.timeout posting.timeout) ∨
      ∃ now later, found now ∧ found later ∧ result = client.anew network posting now later

end Client

/-- Connections that were tried one after another: all but the last of them were stale. -/
def Attempt.InTurn (tries : List Attempt) : Prop :=
  ∃ (stale : List Attempt) (last : Option Attempt),
    tries = stale ++ last.toList ∧ ∀ attempt ∈ stale, attempt.IsStale

theorem Attempt.IsStale.not_delivered {attempt : Attempt} (h : attempt.IsStale) :
    attempt.outcome ≠ .delivered := by
  rcases h.2 with h | h <;> simp [h]

/-- How often the request of a post has got out, or may have. -/
def Board.deliveries (board : Board σ) (i : Nat) : Nat :=
  (board.tries i).countP (·.outcome = .delivered) + if (board.stages i).isAsking then 1 else 0

/-- **What is known of a post**, by where it stands.  As long as it goes on, all that it has tried was stale;
`found` says in which states it has found the other side. -/
inductive PostStage.Told (client : Client) (network : Network σ) (posting : Posting) (found : σ → Prop) :
    PostStage → List Attempt → Prop where
  | unstarted : Told client network posting found .unstarted []
  | seeking {target tries} (path : Client.requestTarget? client.path posting.timeout = some target)
      (stale : ∀ attempt ∈ tries, attempt.IsStale) :
      Told client network posting found (.seeking target) tries
  | waiting {target connection tries}
      (path : Client.requestTarget? client.path posting.timeout = some target)
      (stale : ∀ attempt ∈ tries, attempt.IsStale) :
      Told client network posting found (.waiting target connection) tries
  | dialling {target tries} (path : Client.requestTarget? client.path posting.timeout = some target)
      (stale : ∀ attempt ∈ tries, attempt.IsStale) :
      Told client network posting found (.dialling target) tries
  | reusing {target connection request tries}
      (path : Client.requestTarget? client.path posting.timeout = some target)
      (stale : ∀ attempt ∈ tries, attempt.IsStale) :
      Told client network posting found (.asking target connection true request) tries
  | asking {target connection request tries}
      (fresh : ∃ now, found now ∧ ∀ later sent last,
        network.send connection request later = (sent, last) →
          client.anew network posting now later = Client.received posting.timeout sent)
      (stale : ∀ attempt ∈ tries, attempt.IsStale) :
      Told client network posting found (.asking target connection false request) tries
  | returning {connection result tries} (inTurn : Attempt.InTurn tries)
      (unharmed : client.Unharmed network posting found tries result) :
      Told client network posting found (.returning connection result) tries
  | ended {result tries} (inTurn : Attempt.InTurn tries)
      (unharmed : client.Unharmed network posting found tries result) :
      Told client network posting found (.ended result) tries

namespace PostStage.Told

variable {found found' : σ → Prop} {stage : PostStage} {tries : List Attempt}

/-- A post that goes on has tried nothing that was not stale. -/
theorem stale (h : stage.Told client network posting found tries) (hgoes : stage.isOver = false) :
    ∀ attempt ∈ tries, attempt.IsStale := by
  cases h with
  | unstarted => simp
  | seeking _ stale | waiting _ stale | dialling _ stale | reusing _ stale | asking _ stale => exact stale
  | returning _ _ | ended _ _ => cases hgoes

theorem inTurn (h : stage.Told client network posting found tries) : Attempt.InTurn tries := by
  cases hover : stage.isOver with
  | false => exact ⟨tries, none, by simp, h.stale hover⟩
  | true =>
    cases h with
    | returning inTurn _ | ended inTurn _ => exact inTurn
    | unstarted | seeking _ _ | waiting _ _ | dialling _ _ | reusing _ _ | asking _ _ => cases hover

/-- **The request of a post gets out once at most.** -/
theorem deliveries {board : Board σ} {i : Nat}
    (h : (board.stages i).Told client network posting found (board.tries i)) : board.deliveries i ≤ 1 := by
  have hstale : ∀ {stale : List Attempt}, (∀ attempt ∈ stale, attempt.IsStale) →
      stale.countP (·.outcome = .delivered) = 0 := fun h =>
    List.countP_eq_zero.2 fun attempt hattempt => by simpa using (h attempt hattempt).not_delivered
  unfold Board.deliveries
  cases hasking : (board.stages i).isAsking with
  | true =>
    simp [hstale (h.stale (PostStage.isOver_of_isAsking hasking))]
  | false =>
    obtain ⟨stale, last, htries, hall⟩ := h.inTurn
    rw [htries, List.countP_append, hstale hall]
    have hlast : last.toList.length ≤ 1 := by cases last <;> simp
    have hcount := List.countP_le_length (l := last.toList) (p := (·.outcome = .delivered))
    simp only [Bool.false_eq_true, if_false]
    omega

theorem mono (h : stage.Told client network posting found tries)
    (hfound : ∀ world, found world → found' world) :
    stage.Told client network posting found' tries := by
  have hunharmed : ∀ {result}, client.Unharmed network posting found tries result →
      client.Unharmed network posting found' tries result := by
    intro result hresult hstale
    refine (hresult hstale).imp_right ?_
    rintro ⟨now, later, hnow, hlater, h⟩
    exact ⟨now, later, hfound now hnow, hfound later hlater, h⟩
  cases h with
  | unstarted => exact .unstarted
  | seeking path stale => exact .seeking path stale
  | waiting path stale => exact .waiting path stale
  | dialling path stale => exact .dialling path stale
  | reusing path stale => exact .reusing path stale
  | asking fresh stale =>
    obtain ⟨now, hnow, h⟩ := fresh
    exact .asking ⟨now, hfound now hnow, h⟩ stale
  | returning inTurn unharmed => exact .returning inTurn (hunharmed unharmed)
  | ended inTurn unharmed => exact .ended inTurn (hunharmed unharmed)

theorem unharmed_of_last {result : Except ClientError (List UInt8)} {last : Attempt} (hidle : last.idle = true)
    (hnotStale : ¬ last.IsStale) : client.Unharmed network posting found (tries ++ [last]) result :=
  fun hstale => absurd (hstale last (by simp) hidle) hnotStale

/-- **A turn of a post, and what is known after it.** -/
theorem next (h : stage.Told client network posting found tries) {pool : Pool} {world : σ} {move : Move σ}
    (hmoves : stage.Moves client network posting pool world move) (hworld : found world) :
    move.stage.Told client network posting found (tries ++ move.tried.toList) := by
  -- The post ends, and all that it had tried before this turn was stale.
  have hends : ∀ {result} (last : Option Attempt), stage.isOver = false →
      client.Unharmed network posting found (tries ++ last.toList) result →
      PostStage.Told client network posting found (.ended result) (tries ++ last.toList) :=
    fun last hgoes hresult => .ended ⟨tries, last, rfl, h.stale hgoes⟩ hresult
  have hanother : ∀ last : Attempt, stage.isOver = false → last.IsStale →
      ∀ attempt ∈ tries ++ [last], attempt.IsStale := by
    intro last hgoes hlast attempt hattempt
    rcases List.mem_append.1 hattempt with hbefore | hnow
    · exact h.stale hgoes attempt hbefore
    · rw [List.mem_singleton.1 hnow]
      exact hlast
  cases hmoves with
  | malformed path =>
    refine hends none rfl fun _ => .inr ⟨world, world, hworld, hworld, ?_⟩
    simp [Client.anew, Client.postBytes, path]
  | started path => simpa using Told.seeking path (h.stale rfl)
  | foundNone _ =>
    cases h with
    | seeking path stale => simpa using Told.dialling path stale
  | took _ =>
    cases h with
    | seeking path stale => simpa using Told.waiting path stale
  | expired busy _ _ => exact hends _ busy fun _ => .inl rfl
  | unready _ =>
    cases h with
    | waiting path stale => exact .seeking path (hanother _ rfl ⟨rfl, .inl rfl⟩)
  | unwritable _ _ => exact hends (some _) rfl (unharmed_of_last rfl (by simp [Attempt.IsStale]))
  | reused _ _ =>
    cases h with
    | waiting path stale => simpa using Told.reusing path stale
  | unresolved resolve =>
    cases h with
    | dialling path stale =>
      refine hends none rfl fun _ => .inr ⟨world, world, hworld, hworld, ?_⟩
      rw [Client.anew_unresolved path resolve]
  | undialled resolve dial failed =>
    cases h with
    | dialling path stale =>
      refine hends none rfl fun _ => .inr ⟨world, world, hworld, hworld, ?_⟩
      rw [Client.anew_undialled path resolve dial world failed]
  | unwritableFresh resolve dial connected request =>
    cases h with
    | dialling path stale =>
      refine hends (some _) rfl fun _ => .inr ⟨world, world, hworld, hworld, ?_⟩
      rw [Client.anew_unwritable path resolve dial connected request]
  | opened resolve dial connected written =>
    cases h with
    | dialling path stale =>
      refine .asking ⟨world, hworld, fun later sent last answer => ?_⟩ (by simpa using stale)
      exact Client.anew_sent path resolve dial connected written answer
  | canceled _ =>
    cases h with
    | reusing path stale => exact .seeking path (hanother _ rfl ⟨rfl, .inr rfl⟩)
  | silent _ => exact hends (some _) rfl fun _ => .inl rfl
  | closed answer final _ =>
    refine hends (some _) rfl ?_
    cases h with
    | reusing path stale => exact unharmed_of_last rfl (by simp [Attempt.IsStale, final])
    | asking fresh stale =>
      obtain ⟨now, hnow, hanswer⟩ := fresh
      exact fun _ => .inr ⟨now, world, hnow, hworld, (hanswer _ _ _ answer).symm⟩
  | kept answer final _ =>
    refine .returning ⟨tries, some _, rfl, h.stale rfl⟩ ?_
    cases h with
    | reusing path stale => exact unharmed_of_last rfl (by simp [Attempt.IsStale, final])
    | asking fresh stale =>
      obtain ⟨now, hnow, hanswer⟩ := fresh
      exact fun _ => .inr ⟨now, world, hnow, hworld, (hanswer _ _ _ answer).symm⟩
  | putBack _ | letGo _ =>
    cases h with
    | returning inTurn unharmed => simpa using Told.ended inTurn unharmed
  | rested => simpa using h

end PostStage.Told

namespace Client

variable (client network postings) in
/-- The states in which a post has found the other side, in turns of its own. -/
def Found (turns : List (Turn σ)) (world : σ) (i : Nat) (state : σ) : Prop :=
  ∃ earlier expired, earlier ++ [.post i expired] <+: turns ∧
    (client.play network postings earlier (.start world)).world = state

theorem Found.append {turns : List (Turn σ)} {world state : σ} {i : Nat}
    (h : client.Found network postings turns world i state) (more : List (Turn σ)) :
    client.Found network postings (turns ++ more) world i state := by
  obtain ⟨earlier, expired, hearlier, hstate⟩ := h
  exact ⟨earlier, expired, hearlier.trans (List.prefix_append turns more), hstate⟩

variable (client network postings) in
/-- **What is known of every post after any turns.** -/
theorem play_told (turns : List (Turn σ)) (world : σ) (i : Nat) :
    let board := client.play network postings turns (.start world)
    (board.stages i).Told client network (postings i) (client.Found network postings turns world i)
      (board.tries i) := by
  induction turns using List.reverseRecOn with
  | nil => exact .unstarted
  | append_singleton turns turn ih =>
    have hknown := ih.mono fun state hfound => Found.append hfound [turn]
    rw [play_concat]
    cases turn with
    | other later => exact hknown
    | post j expired =>
      show PostStage.Told _ _ _ _ ((Board.after _ j _).stages i) ((Board.after _ j _).tries i)
      rw [Board.tries_after]
      by_cases hij : i = j
      · subst hij
        have hfound : client.Found network postings (turns ++ [.post i expired]) world i
            (client.play network postings turns (.start world)).world :=
          ⟨turns, expired, List.prefix_refl _, rfl⟩
        simpa [Board.after] using hknown.next (moves_next ..) hfound
      · simpa [Board.after, hij] using hknown

end Client

/-! ## 2. Stale connections -/

namespace Client

variable (client network) in
/-- **Idle connections that are all stale**, one after another: not ready, or closed before the request went
out.  The two states are those of the other side before and after. -/
inductive AllStale (target : String) (body : Json) : Pool → σ → σ → Prop where
  | none {world} : AllStale target body [] world world
  | unready {connection pool world next last} (ready : network.ready connection world = (false, next))
      (rest : AllStale target body pool next last) : AllStale target body (connection :: pool) world last
  | canceled {connection pool world next request after last}
      (ready : network.ready connection world = (true, next))
      (written : client.request? target body = some request)
      (sent : network.send connection request next = (.canceled, after))
      (rest : AllStale target body pool after last) : AllStale target body (connection :: pool) world last

/-- A request that finds stale connections only drops them all, and fares as if there had been none. -/
theorem send_stale {target : String} {body : Json} {timeout : Time.Span} {pool : Pool} {world last : σ}
    (h : client.AllStale network target body pool world last) :
    client.send network target body timeout pool world = client.send network target body timeout [] last := by
  induction h with
  | none => rfl
  | unready ready _ ih => simpa [send, ready] using ih
  | canceled ready written sent _ ih => simpa [send, ready, written, sent] using ih

/-- **A post that finds stale connections only does what it does without any.** -/
theorem postBytes_stale {target : String} {body : Json} {timeout : Time.Span} {pool : Pool} {world last : σ}
    (path : requestTarget? client.path timeout = some target)
    (h : client.AllStale network target body pool world last) :
    client.postBytes network body timeout pool world = client.postBytes network body timeout [] last := by
  simp only [postBytes, path]
  exact send_stale h

end Client

/-! ## 3. Together -/

/-- **Posts on one client share its connections safely**, however they take turns and whatever the other side
does.  Eight connections at most are idle.  A connection is at one place only: it is idle, or one post has it in
use.  Only what was found open after an answer becomes idle.  The request of a post gets out once at most; it
goes on to another connection only from an idle one that was stale, and opens one only when none is idle.  Stale
connections are gone for good, and a post that tried no other idle ones has run out of time or comes to what it
would have come to without them; on its own it does just what it does without them.  Posts that follow one
another leave one idle connection at most, if there was none at first.  And a post that has the client to itself
does what `Client.postBytes` does. -/
theorem posts_share_connections (client : Client) (network : Network σ) (postings : Nat → Posting)
    (turns : List (Turn σ)) (world : σ)
    (hnew : (client.play network postings turns (.start world)).opened.Nodup) :
    let boardAfter := fun turns => client.play network postings turns (.start world)
    let board := boardAfter turns
    (board.pool.length ≤ Pool.limit ∧ board.pool.Nodup) ∧
    (∀ c place place', board.Has c place → board.Has c place' → place = place') ∧
    (∀ earlier turn later, turns = earlier ++ turn :: later →
      ∀ c, c ∈ (boardAfter (earlier ++ [turn])).pool → c ∉ (boardAfter earlier).pool →
        ∃ i expired, turn = .post i expired ∧ client.FoundOpen network postings earlier world i c) ∧
    (∀ i, board.deliveries i ≤ 1) ∧
    (∀ i, Attempt.InTurn (board.tries i) ∧
      ((board.stages i).isOver = false → ∀ attempt ∈ board.tries i, attempt.IsStale)) ∧
    (∀ earlier turn later, turns = earlier ++ turn :: later →
      ∀ i target, (boardAfter (earlier ++ [turn])).stages i = .dialling target →
        (boardAfter earlier).stages i ≠ .dialling target → (boardAfter earlier).pool = []) ∧
    (∀ i, ∀ attempt ∈ board.tries i, attempt.IsStale → board.Lost attempt.connection) ∧
    (∀ i result, board.stages i = .ended result →
      client.Unharmed network (postings i) (client.Found network postings turns world i) (board.tries i)
        result) ∧
    (∀ target body timeout pool now last, Client.requestTarget? client.path timeout = some target →
      client.AllStale network target body pool now last →
      client.postBytes network body timeout pool now = client.postBytes network body timeout [] last) ∧
    (∀ earlier later, turns = earlier ++ later → (boardAfter earlier).pool = [] →
      client.OneAtATime network postings later (boardAfter earlier) → board.pool.length ≤ 1) ∧
    (∀ i, board.stages i = .unstarted →
      ∃ n, let later := client.play network postings (List.replicate n (.post i false)) board
        later.standing i = Client.ending (client.postBytes network (postings i).body (postings i).timeout
          board.pool board.world) ∧
        ∀ j ≠ i, later.stages j = board.stages j) := by
  intro boardAfter board
  have hsound : board.Sound := Client.play_sound hnew
  have htold := client.play_told network postings turns world
  refine ⟨⟨hsound.few, hsound.distinct⟩, hsound.unique, ?_, fun i => (htold i).deliveries,
    fun i => ⟨(htold i).inTurn, (htold i).stale⟩, ?_, hsound.staleLost, ?_, ?_, ?_,
    fun i hi => Client.play_alone hi⟩
  · exact fun earlier turn later _ c hafter hbefore => Client.foundOpen_of_mem_pool hafter hbefore
  · exact fun earlier turn later _ i target hafter hbefore => Client.empty_of_dialling hafter hbefore
  · intro i result hended
    have h := htold i
    dsimp only at h
    rw [show (client.play network postings turns (.start world)).stages i = .ended result from hended] at h
    cases h with
    | ended _ unharmed => exact unharmed
  · exact fun target body timeout pool now last path hstale => Client.postBytes_stale path hstale
  · rintro earlier later hturns hnone hone
    show (client.play network postings turns (.start world)).pool.length ≤ 1
    rw [hturns, Client.play_append]
    exact (Client.play_thrifty hnone hone).few

/-- A server that numbers its connections, and that may be started again: those before a number are gone. -/
def Network.restarting : Network (Nat × Nat) where
  dial _ _ world := (.opened world.1, world.1 + 1, world.2)
  ready connection world := (decide (world.2 ≤ connection), world)
  send _ _ world := (.reply 200 "{}".toUTF8.toList, world)
  isClosed connection world := decide (connection < world.2)

/-- Two posts at once, and one after the server has been started again. -/
theorem posts_share_connections_restarting :
    let client : Client := ⟨.address "127.0.0.1" 8080, "127.0.0.1:8080", "/path", none, none⟩
    let turns : List (Turn (Nat × Nat)) :=
      List.replicate 3 (.post 0 false) ++ List.replicate 5 (.post 1 false) ++
        List.replicate 2 (.post 0 false) ++ [.other (2, 2)] ++ List.replicate 10 (.post 2 false)
    let board := client.play .restarting (fun _ => ⟨.null, .ofSeconds 5⟩) turns (.start (0, 0))
    board.opened = [0, 1, 2] ∧ board.pool = [2] ∧
      board.tries 2 = [⟨0, true, .unready⟩, ⟨1, true, .unready⟩, ⟨2, false, .delivered⟩] ∧
      board.Lost 0 ∧ board.Lost 1 ∧ ¬ board.Has 2 (.inUse 2) := by
  intro client turns board
  have hopened : board.opened = [0, 1, 2] := by decide +kernel
  have hpool : board.pool = [2] := by decide +kernel
  have htries : board.tries 2 =
      [⟨0, true, .unready⟩, ⟨1, true, .unready⟩, ⟨2, false, .delivered⟩] := by decide +kernel
  obtain ⟨-, hunique, -, -, -, -, hlost, -⟩ := posts_share_connections client .restarting
    (fun _ => ⟨.null, .ofSeconds 5⟩) turns (0, 0) (by decide +kernel)
  refine ⟨hopened, hpool, htries, ?_, ?_, fun hheld => ?_⟩
  · have htried : ⟨0, true, .unready⟩ ∈ board.tries 2 := htries ▸ List.mem_cons_self
    exact hlost 2 _ htried ⟨rfl, .inl rfl⟩
  · have htried : ⟨1, true, .unready⟩ ∈ board.tries 2 := htries ▸ List.mem_cons_of_mem _ List.mem_cons_self
    exact hlost 2 _ htried ⟨rfl, .inl rfl⟩
  · have hidle : 2 ∈ board.pool := hpool ▸ List.mem_singleton_self 2
    cases hunique 2 .idle (.inUse 2) hidle hheld

end Admission
