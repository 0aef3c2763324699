import Admission.Client.Exchange
import Mathlib.Data.List.Nodup
import Mathlib.Logic.Function.Basic

/-!
# Posts that take turns

Several posts on one client share its idle connections, and each of them waits for the other side again and
again.  What happens while it waits is not up to it: other posts go on, time passes, and the other side does
what it likes.  So a post is a sequence of turns, each of which ends where it has to wait or lets go of the
connections (`Client.next`); a `Board` is what the posts have between two turns, and any turns may follow one
another (`Client.play`).

What a turn can do is said once (`PostStage.Moves`).  A post that is left alone does what `Client.postBytes`
does (`Client.play_alone`).
-/

namespace Admission

variable {σ : Type}

/-! ## 1. Turns -/

/-- What a post is asked to send, and how long it may take. -/
structure Posting where
  body : Json
  timeout : Time.Span

/-- What came of trying a connection. -/
inductive Outcome where
  /-- It was not ready. -/
  | unready
  /-- It was closed before the request went out. -/
  | canceled
  /-- Nothing was written. -/
  | unwritten
  /-- The request may have got to the other side. -/
  | delivered
  deriving DecidableEq, Repr

/-- A connection that a post has tried, and whether it was an idle one. -/
structure Attempt where
  connection : Connection
  idle : Bool
  outcome : Outcome
  deriving DecidableEq, Repr

/-- **An idle connection that has gone stale.** -/
def Attempt.IsStale (attempt : Attempt) : Prop :=
  attempt.idle = true ∧ (attempt.outcome = .unready ∨ attempt.outcome = .canceled)

def Sent.outcome : Sent → Outcome
  | .canceled => .canceled
  | _ => .delivered

/-- Where a post stands. -/
inductive PostStage where
  | unstarted
  /-- It is about to take an idle connection. -/
  | seeking (target : String)
  /-- It has taken one and waits until it is ready. -/
  | waiting (target : String) (connection : Connection)
  | dialling (target : String)
  /-- It waits for the answer. -/
  | asking (target : String) (connection : Connection) (idle : Bool) (request : HttpRequest)
  /-- It has found its connection open and is about to let go of it. -/
  | returning (connection : Connection) (result : Except ClientError (List UInt8))
  | ended (result : Except ClientError (List UInt8))

namespace PostStage

/-- The connection that a post has in use. -/
def held? : PostStage → Option Connection
  | .waiting _ connection | .asking _ connection _ _ | .returning connection _ => some connection
  | _ => none

/-- Whether a post is done with the other side. -/
def isOver : PostStage → Bool
  | .returning _ _ | .ended _ => true
  | _ => false

/-- Whether a request is on its way. -/
def isAsking : PostStage → Bool
  | .asking _ _ _ _ => true
  | _ => false

theorem isOver_of_isAsking {stage : PostStage} (h : stage.isAsking = true) : stage.isOver = false := by
  cases stage with
  | asking target connection idle request => rfl
  | unstarted | seeking _ | waiting _ _ | dialling _ | returning _ _ | ended _ => cases h

/-- Whether a post has begun and has not ended. -/
def isBusy : PostStage → Bool
  | .unstarted | .ended _ => false
  | _ => true

end PostStage

/-- What a turn leaves. -/
structure Move (σ : Type) where
  stage : PostStage
  pool : Pool
  world : σ
  tried : Option Attempt := none
  /-- The connection that was opened. -/
  opened : Option Connection := none

namespace Client

variable (client : Client) (network : Network σ) (posting : Posting)

/-- What dialling comes to. -/
def connected (endpoint : Endpoint) (timeout : Time.Span) : Dialled → Except ClientError Connection
  | .opened connection => .ok connection
  | .refused reason => .error (.connect endpoint.text reason)
  | .unsecured reason => .error (.handshake client.authority reason)
  | .silence => .error (.timeout timeout)

/-- **One turn of a post.**  If it waits and its time is up, it ends, and its connection is gone. -/
def next (expired : Bool) (pool : Pool) (world : σ) : PostStage → Move σ
  | .unstarted =>
    match requestTarget? client.path posting.timeout with
    | none => { stage := .ended (.error (.invalidRequest "invalid uri")), pool, world }
    | some target => { stage := .seeking target, pool, world }
  | .seeking target =>
    match pool with
    | [] => { stage := .dialling target, pool := [], world }
    | connection :: pool => { stage := .waiting target connection, pool, world }
  | .waiting target connection =>
    if expired then
      { stage := .ended (.error (.timeout posting.timeout)), pool, world,
        tried := some ⟨connection, true, .unwritten⟩ }
    else
      match network.ready connection world with
      | (false, world) =>
        { stage := .seeking target, pool, world, tried := some ⟨connection, true, .unready⟩ }
      | (true, world) =>
        match client.request? target posting.body with
        | none =>
          { stage := .ended (.error (.invalidRequest "failed to parse header value")), pool, world,
            tried := some ⟨connection, true, .unwritten⟩ }
        | some request => { stage := .asking target connection true request, pool, world }
  | .dialling target =>
    match client.target.resolve with
    | .error e => { stage := .ended (.error e), pool, world }
    | .ok endpoint =>
      if expired then { stage := .ended (.error (.timeout posting.timeout)), pool, world }
      else
        match network.dial endpoint client.tls world with
        | (dialled, world) =>
          match client.connected endpoint posting.timeout dialled with
          | .error e => { stage := .ended (.error e), pool, world }
          | .ok connection =>
            match client.request? target posting.body with
            | none =>
              { stage := .ended (.error (.invalidRequest "failed to parse header value")), pool, world,
                tried := some ⟨connection, false, .unwritten⟩, opened := some connection }
            | some request =>
              { stage := .asking target connection false request, pool, world,
                opened := some connection }
  | .asking target connection idle request =>
    if expired then
      { stage := .ended (.error (.timeout posting.timeout)), pool, world,
        tried := some ⟨connection, idle, .delivered⟩ }
    else
      match network.send connection request world with
      | (.silence, world) =>
        { stage := .ended (.error (.timeout posting.timeout)), pool, world,
          tried := some ⟨connection, idle, .delivered⟩ }
      | (sent, world) =>
        if idle = true ∧ sent.outcome = .canceled then
          { stage := .seeking target, pool, world, tried := some ⟨connection, true, .canceled⟩ }
        else
          { stage :=
              if network.isClosed connection world then .ended (received posting.timeout sent)
              else .returning connection (received posting.timeout sent)
            pool, world, tried := some ⟨connection, idle, sent.outcome⟩ }
  | .returning connection result =>
    { stage := .ended result, pool := Pool.release false connection pool, world }
  | .ended result => { stage := .ended result, pool, world }

end Client

/-- **What a turn can do.** -/
inductive PostStage.Moves (client : Client) (network : Network σ) (posting : Posting) (pool : Pool)
    (world : σ) : PostStage → Move σ → Prop where
  | malformed (path : Client.requestTarget? client.path posting.timeout = none) :
      Moves client network posting pool world .unstarted
        { stage := .ended (.error (.invalidRequest "invalid uri")), pool, world }
  | started {target} (path : Client.requestTarget? client.path posting.timeout = some target) :
      Moves client network posting pool world .unstarted { stage := .seeking target, pool, world }
  | foundNone {target} (empty : pool = []) :
      Moves client network posting pool world (.seeking target) { stage := .dialling target, pool, world }
  | took {target connection rest} (first : pool = connection :: rest) :
      Moves client network posting pool world (.seeking target)
        { stage := .waiting target connection, pool := rest, world }
  | expired {stage tried} (busy : stage.isOver = false) (left : stage ≠ .unstarted)
      (letGo : ∀ attempt ∈ tried, stage.held? = some attempt.connection) :
      Moves client network posting pool world stage
        { stage := .ended (.error (.timeout posting.timeout)), pool, world, tried }
  | unready {target connection next} (ready : network.ready connection world = (false, next)) :
      Moves client network posting pool world (.waiting target connection)
        { stage := .seeking target, pool, world := next, tried := some ⟨connection, true, .unready⟩ }
  | unwritable {target connection next} (ready : network.ready connection world = (true, next))
      (request : client.request? target posting.body = none) :
      Moves client network posting pool world (.waiting target connection)
        { stage := .ended (.error (.invalidRequest "failed to parse header value")), pool, world := next
          tried := some ⟨connection, true, .unwritten⟩ }
  | reused {target connection next request} (ready : network.ready connection world = (true, next))
      (written : client.request? target posting.body = some request) :
      Moves client network posting pool world (.waiting target connection)
        { stage := .asking target connection true request, pool, world := next }
  | unresolved {target e} (resolve : client.target.resolve = .error e) :
      Moves client network posting pool world (.dialling target)
        { stage := .ended (.error e), pool, world }
  | undialled {target endpoint dialled next e} (resolve : client.target.resolve = .ok endpoint)
      (dial : network.dial endpoint client.tls world = (dialled, next))
      (failed : client.connected endpoint posting.timeout dialled = .error e) :
      Moves client network posting pool world (.dialling target)
        { stage := .ended (.error e), pool, world := next }
  | unwritableFresh {target endpoint dialled next connection} (resolve : client.target.resolve = .ok endpoint)
      (dial : network.dial endpoint client.tls world = (dialled, next))
      (connected : client.connected endpoint posting.timeout dialled = .ok connection)
      (request : client.request? target posting.body = none) :
      Moves client network posting pool world (.dialling target)
        { stage := .ended (.error (.invalidRequest "failed to parse header value")), pool, world := next
          tried := some ⟨connection, false, .unwritten⟩, opened := some connection }
  | opened {target endpoint dialled next connection request} (resolve : client.target.resolve = .ok endpoint)
      (dial : network.dial endpoint client.tls world = (dialled, next))
      (connected : client.connected endpoint posting.timeout dialled = .ok connection)
      (written : client.request? target posting.body = some request) :
      Moves client network posting pool world (.dialling target)
        { stage := .asking target connection false request, pool, world := next
          opened := some connection }
  | canceled {target connection request next}
      (sent : network.send connection request world = (.canceled, next)) :
      Moves client network posting pool world (.asking target connection true request)
        { stage := .seeking target, pool, world := next, tried := some ⟨connection, true, .canceled⟩ }
  | silent {target connection idle request next}
      (sent : network.send connection request world = (.silence, next)) :
      Moves client network posting pool world (.asking target connection idle request)
        { stage := .ended (.error (.timeout posting.timeout)), pool, world := next
          tried := some ⟨connection, idle, .delivered⟩ }
  | closed {target connection idle request sent next}
      (answer : network.send connection request world = (sent, next))
      (final : idle = true → sent.outcome = .delivered) (isClosed : network.isClosed connection next = true) :
      Moves client network posting pool world (.asking target connection idle request)
        { stage := .ended (Client.received posting.timeout sent), pool, world := next
          tried := some ⟨connection, idle, sent.outcome⟩ }
  | kept {target connection idle request sent next}
      (answer : network.send connection request world = (sent, next))
      (final : idle = true → sent.outcome = .delivered) (isOpen : network.isClosed connection next = false) :
      Moves client network posting pool world (.asking target connection idle request)
        { stage := .returning connection (Client.received posting.timeout sent), pool, world := next
          tried := some ⟨connection, idle, sent.outcome⟩ }
  | putBack {connection result} (room : pool.length < Pool.limit) :
      Moves client network posting pool world (.returning connection result)
        { stage := .ended result, pool := connection :: pool, world }
  | letGo {connection result} (full : Pool.limit ≤ pool.length) :
      Moves client network posting pool world (.returning connection result)
        { stage := .ended result, pool, world }
  | rested {result} : Moves client network posting pool world (.ended result)
      { stage := .ended result, pool, world }

theorem Client.moves_next (client : Client) (network : Network σ) (posting : Posting) (expired : Bool)
    (pool : Pool) (world : σ) (stage : PostStage) :
    stage.Moves client network posting pool world
      (client.next network posting expired pool world stage) := by
  cases stage with
  | unstarted =>
    unfold next
    cases hpath : requestTarget? client.path posting.timeout with
    | none => exact .malformed hpath
    | some target => exact .started hpath
  | seeking target =>
    cases pool with
    | nil => exact .foundNone rfl
    | cons connection rest => exact .took rfl
  | waiting target connection =>
    unfold next
    cases expired with
    | true => exact .expired rfl (by simp) (by simp [PostStage.held?])
    | false =>
      dsimp only
      rcases hready : network.ready connection world with ⟨ready, next⟩
      cases ready with
      | false => exact .unready hready
      | true =>
        dsimp only
        cases hrequest : client.request? target posting.body with
        | none => exact .unwritable hready hrequest
        | some request => exact .reused hready hrequest
  | dialling target =>
    unfold next
    cases hresolve : client.target.resolve with
    | error e => exact .unresolved hresolve
    | ok endpoint =>
      cases expired with
      | true => exact .expired rfl (by simp) (by simp)
      | false =>
        dsimp only
        cases hconnected :
            client.connected endpoint posting.timeout (network.dial endpoint client.tls world).1 with
        | error e => exact .undialled hresolve rfl hconnected
        | ok connection =>
          cases hrequest : client.request? target posting.body with
          | none => exact .unwritableFresh hresolve rfl hconnected hrequest
          | some request => exact .opened hresolve rfl hconnected hrequest
  | asking target connection idle request =>
    unfold next
    cases expired with
    | true => exact .expired rfl (by simp) (by simp [PostStage.held?])
    | false =>
      dsimp only
      rcases hsend : network.send connection request world with ⟨sent, next⟩
      have hanswer : PostStage.Moves client network posting pool world
          (.asking target connection idle request)
          (if idle = true ∧ sent.outcome = .canceled then
            { stage := .seeking target, pool, world := next, tried := some ⟨connection, true, .canceled⟩ }
          else
            { stage :=
                if network.isClosed connection next then .ended (received posting.timeout sent)
                else .returning connection (received posting.timeout sent)
              pool, world := next, tried := some ⟨connection, idle, sent.outcome⟩ }) := by
        by_cases hagain : idle = true ∧ sent.outcome = .canceled
        · rw [if_pos hagain]
          obtain ⟨rfl, hcanceled⟩ := hagain
          obtain rfl : sent = .canceled := by
            cases sent with
            | canceled => rfl
            | reply status bytes | failed reason | silence => cases hcanceled
          exact .canceled hsend
        · have hfinal : idle = true → sent.outcome = .delivered := by
            intro hidle
            cases sent with
            | canceled => exact absurd ⟨hidle, rfl⟩ hagain
            | reply status bytes | failed reason | silence => rfl
          rw [if_neg hagain]
          cases hclosed : network.isClosed connection next with
          | true => exact .closed hsend hfinal hclosed
          | false => exact .kept hsend hfinal hclosed
      cases sent with
      | silence => exact .silent hsend
      | reply status bytes | failed reason | canceled => exact hanswer
  | returning connection result =>
    show PostStage.Moves _ _ _ _ _ _
      { stage := .ended result, pool := Pool.release false connection pool, world }
    unfold Pool.release
    by_cases hfull : Pool.limit ≤ pool.length
    · rw [if_pos (by simpa using hfull)]
      exact .letGo hfull
    · rw [if_neg (by simpa using hfull)]
      exact .putBack (by omega)
  | ended result => exact .rested

/-- What posts have between two turns, and what they have done. -/
structure Board (σ : Type) where
  pool : Pool
  stages : Nat → PostStage
  /-- The connections that were tried, and by which post, in order. -/
  attempts : List (Nat × Attempt)
  /-- The connections that were opened. -/
  opened : List Connection
  world : σ

namespace Board

/-- Nothing has happened yet. -/
def start (world : σ) : Board σ := ⟨[], fun _ => .unstarted, [], [], world⟩

/-- The connections that a post has tried. -/
def tries (board : Board σ) (i : Nat) : List Attempt :=
  (board.attempts.filter (·.1 = i)).map (·.2)

/-- Where a post stands, and what it finds there. -/
def standing (board : Board σ) (i : Nat) : PostStage × Pool × σ :=
  (board.stages i, board.pool, board.world)

/-- The board after a turn of a post. -/
def after (board : Board σ) (i : Nat) (move : Move σ) : Board σ where
  pool := move.pool
  stages := Function.update board.stages i move.stage
  attempts := board.attempts ++ move.tried.toList.map (i, ·)
  opened := board.opened ++ move.opened.toList
  world := move.world

end Board

/-- Who moves. -/
inductive Turn (σ : Type) where
  /-- A post, whose time may be up. -/
  | post (index : Nat) (expired : Bool)
  /-- The other side, or time. -/
  | other (world : σ)

namespace Client

variable (client : Client) (network : Network σ) (postings : Nat → Posting)

def step (board : Board σ) : Turn σ → Board σ
  | .post i expired =>
    board.after i (client.next network (postings i) expired board.pool board.world (board.stages i))
  | .other world => { board with world := world }

/-- **Any turns, one after another.** -/
def play (turns : List (Turn σ)) (board : Board σ) : Board σ :=
  turns.foldl (client.step network postings) board

variable {client network postings}

theorem play_append (turns more : List (Turn σ)) (board : Board σ) :
    client.play network postings (turns ++ more) board =
      client.play network postings more (client.play network postings turns board) :=
  List.foldl_append

theorem play_concat (turns : List (Turn σ)) (turn : Turn σ) (board : Board σ) :
    client.play network postings (turns ++ [turn]) board =
      client.step network postings (client.play network postings turns board) turn :=
  play_append turns [turn] board

/-! ## 2. A post on its own -/

variable (client network) in
/-- What a post, the pool and the other side come to in some turns of the post. -/
def alone (posting : Posting) : Nat → PostStage × Pool × σ → PostStage × Pool × σ
  | 0, here => here
  | n + 1, (stage, pool, world) =>
    let move := client.next network posting false pool world stage
    alone posting n (move.stage, move.pool, move.world)

variable {posting : Posting} {here there : PostStage × Pool × σ}

variable (client network posting) in
/-- A post gets from here to there. -/
def Gets (here there : PostStage × Pool × σ) : Prop := ∃ n, client.alone network posting n here = there

theorem Gets.refl (here : PostStage × Pool × σ) : client.Gets network posting here here := ⟨0, rfl⟩

theorem Gets.turn {stage : PostStage} {pool : Pool} {world : σ} {move : Move σ}
    (h : client.next network posting false pool world stage = move)
    (hrest : client.Gets network posting (move.stage, move.pool, move.world) there) :
    client.Gets network posting (stage, pool, world) there := by
  obtain ⟨n, hn⟩ := hrest
  refine ⟨n + 1, ?_⟩
  rw [alone, h]
  exact hn

theorem gets_released (connection : Connection) (result : Except ClientError (List UInt8)) (closed : Bool)
    (pool : Pool) (world : σ) :
    client.Gets network posting
      (if closed then .ended result else .returning connection result, pool, world)
      (.ended result, Pool.release closed connection pool, world) := by
  cases closed with
  | true => exact .refl _
  | false => exact .turn rfl (.refl _)

section Asking

variable {target : String} {connection : Connection} {idle : Bool} {request : HttpRequest} {pool : Pool}
  {world next : σ}

theorem gets_silence (h : network.send connection request world = (.silence, next)) :
    client.Gets network posting (.asking target connection idle request, pool, world)
      (.ended (.error (.timeout posting.timeout)), pool, next) := by
  have hturn : client.next network posting false pool world (.asking target connection idle request) =
      { stage := .ended (.error (.timeout posting.timeout)), pool, world := next
        tried := some ⟨connection, idle, .delivered⟩ } := by
    simp [Client.next, h]
  exact .turn hturn (.refl _)

theorem gets_answer {sent : Sent} (h : network.send connection request world = (sent, next))
    (hsilence : sent ≠ .silence) (hfinal : ¬(idle = true ∧ sent.outcome = .canceled)) :
    client.Gets network posting (.asking target connection idle request, pool, world)
      (.ended (received posting.timeout sent),
        Pool.release (network.isClosed connection next) connection pool, next) := by
  have hturn : client.next network posting false pool world (.asking target connection idle request) =
      { stage :=
          if network.isClosed connection next then .ended (received posting.timeout sent)
          else .returning connection (received posting.timeout sent)
        pool, world := next, tried := some ⟨connection, idle, sent.outcome⟩ } := by
    cases sent with
    | silence => exact absurd rfl hsilence
    | reply status bytes | failed reason | canceled => simp [Client.next, h, hfinal]
  exact .turn hturn (gets_released connection _ (network.isClosed connection next) pool next)

end Asking

/-- What a post comes to by itself: the end, and what it leaves. -/
def ending (result : Except ClientError (List UInt8) × Pool × σ) : PostStage × Pool × σ :=
  (.ended result.1, result.2.1, result.2.2)

/-- **A post that dials does what `Client.sendFresh` does.** -/
theorem gets_sendFresh (target : String) (pool : Pool) (world : σ) :
    client.Gets network posting (.dialling target, pool, world)
      (ending (client.sendFresh network target posting.body posting.timeout pool world)) := by
  unfold sendFresh
  cases hresolve : client.target.resolve with
  | error e => exact .turn (by simp [next, hresolve]; rfl) (.refl _)
  | ok endpoint =>
    dsimp only
    rcases hdial : network.dial endpoint client.tls world with ⟨dialled, after⟩
    cases dialled with
    | refused reason | unsecured reason | silence =>
      exact .turn (by simp [next, hresolve, hdial, connected]; rfl) (.refl _)
    | opened connection =>
      dsimp only
      cases hrequest : client.request? target posting.body with
      | none => exact .turn (by simp [next, hresolve, hdial, connected, hrequest]; rfl) (.refl _)
      | some request =>
        dsimp only
        have hturn : client.next network posting false pool world (.dialling target) =
            { stage := .asking target connection false request, pool, world := after
              opened := some connection } := by
          simp [next, hresolve, hdial, connected, hrequest]
        refine .turn hturn ?_
        rcases hsend : network.send connection request after with ⟨sent, last⟩
        cases sent with
        | silence => exact gets_silence hsend
        | reply status bytes | failed reason | canceled => exact gets_answer hsend (by simp) (by simp)

/-- **One that looks for a connection does what `Client.send` does.** -/
theorem gets_send (target : String) (pool : Pool) (world : σ) :
    client.Gets network posting (.seeking target, pool, world)
      (ending (client.send network target posting.body posting.timeout pool world)) := by
  induction pool generalizing world with
  | nil => exact .turn rfl (gets_sendFresh target [] world)
  | cons connection pool ih =>
    refine .turn rfl ?_
    unfold send
    rcases hready : network.ready connection world with ⟨ready, after⟩
    cases ready with
    | false => exact .turn (by simp [next, hready]; rfl) (ih after)
    | true =>
      dsimp only
      cases hrequest : client.request? target posting.body with
      | none => exact .turn (by simp [next, hready, hrequest]; rfl) (.refl _)
      | some request =>
        dsimp only
        have hturn : client.next network posting false pool world (.waiting target connection) =
            { stage := .asking target connection true request, pool, world := after } := by
          simp [next, hready, hrequest]
        refine .turn hturn ?_
        rcases hsend : network.send connection request after with ⟨sent, last⟩
        cases sent with
        | silence => exact gets_silence hsend
        | reply status bytes | failed reason => exact gets_answer hsend (by simp) (by simp [Sent.outcome])
        | canceled => exact .turn (by simp [next, hsend, Sent.outcome]; rfl) (ih last)

variable (client network posting) in
theorem gets_postBytes (pool : Pool) (world : σ) :
    client.Gets network posting (.unstarted, pool, world)
      (ending (client.postBytes network posting.body posting.timeout pool world)) := by
  unfold postBytes
  cases hpath : requestTarget? client.path posting.timeout with
  | none => exact .turn (by simp [next, hpath]; rfl) (.refl _)
  | some target => exact .turn (by simp [next, hpath]; rfl) (gets_send target pool world)

variable (client network postings) in
theorem play_replicate (i n : Nat) (board : Board σ) :
    (client.play network postings (List.replicate n (.post i false)) board).standing i =
        client.alone network (postings i) n (board.standing i) ∧
      ∀ j ≠ i, (client.play network postings (List.replicate n (.post i false)) board).stages j =
        board.stages j := by
  induction n generalizing board with
  | zero => exact ⟨rfl, fun _ _ => rfl⟩
  | succ n ih =>
    rw [List.replicate_succ, play, List.foldl_cons, ← play]
    obtain ⟨hstanding, hothers⟩ := ih (client.step network postings board (.post i false))
    refine ⟨?_, fun j hj => ?_⟩
    · rw [hstanding]
      simp [step, Board.standing, Board.after, alone]
    · rw [hothers j hj]
      simp [step, Board.after, hj]

/-- **A post that has the client to itself does what `Client.postBytes` does.** -/
theorem play_alone {board : Board σ} {i : Nat} (h : board.stages i = .unstarted) :
    ∃ n, let later := client.play network postings (List.replicate n (.post i false)) board
      later.standing i = ending (client.postBytes network (postings i).body (postings i).timeout
        board.pool board.world) ∧
      ∀ j ≠ i, later.stages j = board.stages j := by
  obtain ⟨n, hn⟩ := client.gets_postBytes network (postings i) board.pool board.world
  obtain ⟨hstanding, hothers⟩ := client.play_replicate network postings i n board
  refine ⟨n, ?_, hothers⟩
  rw [hstanding, Board.standing, h, hn]

end Client

end Admission
