import Admission.Client.Exchange

/-!
# What a client puts on the wire

What a client does to the other side can be watched: which connections it opens, and what it writes to them
(`Network.recording`).  Being watched changes nothing, and whatever is seen is the client's own
(`Client.postBytes_recording`): connections are opened where its target leads and are secured as it says, and
requests carry its authority and its token.
-/

namespace Admission

variable {σ : Type}

/-- What is seen of a client. -/
inductive WireEvent where
  /-- A connection is to be opened. -/
  | dialled (endpoint : Endpoint) (tls : Option SecureName)
  | wrote (connection : Connection) (request : HttpRequest)
  deriving DecidableEq

/-- What is seen, in order. -/
abbrev WireLog := List WireEvent

/-- The same other side, with a log of what is seen. -/
def Network.recording (network : Network σ) : Network (σ × WireLog) where
  dial endpoint tls world :=
    let (dialled, next) := network.dial endpoint tls world.1
    (dialled, next, world.2 ++ [.dialled endpoint tls])
  ready connection world :=
    let (ready, next) := network.ready connection world.1
    (ready, next, world.2)
  send connection request world :=
    let (sent, next) := network.send connection request world.1
    (sent, next, world.2 ++ [.wrote connection request])
  isClosed connection world := network.isClosed connection world.1

/-- A server that takes every connection, numbers them, and answers every request. -/
def Network.willing : Network Nat where
  dial _ _ count := (.opened count, count + 1)
  ready _ count := (true, count)
  send _ _ count := (.reply 200 "{}".toUTF8.toList, count)
  isClosed _ _ := false

section Recording

variable {network : Network σ} {world next : σ} {connection : Connection} (log : WireLog)

theorem Network.dial_recording {endpoint : Endpoint} {tls : Option SecureName} {dialled : Dialled}
    (h : network.dial endpoint tls world = (dialled, next)) :
    network.recording.dial endpoint tls (world, log) =
      (dialled, next, log ++ [.dialled endpoint tls]) := by
  simp [recording, h]

theorem Network.ready_recording {ready : Bool} (h : network.ready connection world = (ready, next)) :
    network.recording.ready connection (world, log) = (ready, next, log) := by
  simp [recording, h]

theorem Network.send_recording {request : HttpRequest} {sent : Sent}
    (h : network.send connection request world = (sent, next)) :
    network.recording.send connection request (world, log) =
      (sent, next, log ++ [.wrote connection request]) := by
  simp [recording, h]

end Recording

/-- What comes of a post, with a log. -/
def logged {α : Type} (result : α × Pool × σ) (log : WireLog) : α × Pool × σ × WireLog :=
  (result.1, result.2.1, result.2.2, log)

namespace Client

variable (client : Client) (network : Network σ) (target : String) (body : Json) (timeout : Time.Span)

/-- **What a client may be seen to do.** -/
def Does : WireEvent → Prop
  | .dialled endpoint tls => client.target.resolve = .ok endpoint ∧ tls = client.tls
  | .wrote _ request => request.authority = client.authority ∧ request.bearerToken = client.bearerToken

variable {client target body} in
theorem does_wrote {request : HttpRequest} (h : client.request? target body = some request)
    (connection : Connection) : client.Does (.wrote connection request) := by
  unfold request? at h
  split at h
  · rw [← Option.some.inj h]
    exact ⟨rfl, rfl⟩
  · cases h

theorem sendFresh_recording (pool : Pool) (world : σ) (log : WireLog) :
    ∃ seen : WireLog, (∀ event ∈ seen, client.Does event) ∧
      client.sendFresh network.recording target body timeout pool (world, log) =
        logged (client.sendFresh network target body timeout pool world) (log ++ seen) := by
  unfold sendFresh
  cases hendpoint : client.target.resolve with
  | error e => exact ⟨[], by simp, by simp [logged]⟩
  | ok endpoint =>
    have hopens : client.Does (.dialled endpoint client.tls) := ⟨hendpoint, rfl⟩
    have hone : ∀ event ∈ [WireEvent.dialled endpoint client.tls], client.Does event := by
      simpa using hopens
    dsimp only
    rcases hdial : network.dial endpoint client.tls world with ⟨dialled, next⟩
    rw [Network.dial_recording log hdial]
    cases dialled with
    | refused reason | unsecured reason | silence => exact ⟨_, hone, rfl⟩
    | opened connection =>
      dsimp only
      cases hrequest : client.request? target body with
      | none => exact ⟨_, hone, rfl⟩
      | some request =>
        have htwo : ∀ event ∈ [WireEvent.dialled endpoint client.tls, .wrote connection request],
            client.Does event := by
          simpa using ⟨hopens, does_wrote hrequest connection⟩
        refine ⟨_, htwo, ?_⟩
        dsimp only
        rcases hsend : network.send connection request next with ⟨sent, last⟩
        rw [Network.send_recording _ hsend, List.append_assoc]
        cases sent <;> rfl

theorem send_recording (pool : Pool) (world : σ) (log : WireLog) :
    ∃ seen : WireLog, (∀ event ∈ seen, client.Does event) ∧
      client.send network.recording target body timeout pool (world, log) =
        logged (client.send network target body timeout pool world) (log ++ seen) := by
  induction pool generalizing world log with
  | nil => exact client.sendFresh_recording network target body timeout [] world log
  | cons connection pool ih =>
    unfold send
    rcases hready : network.ready connection world with ⟨ready, next⟩
    rw [Network.ready_recording log hready]
    cases ready with
    | false => exact ih next log
    | true =>
      dsimp only
      cases hrequest : client.request? target body with
      | none => exact ⟨[], by simp, by simp [logged]⟩
      | some request =>
        have hwrote := does_wrote hrequest connection
        have hone : ∀ event ∈ [WireEvent.wrote connection request], client.Does event := by
          simpa using hwrote
        dsimp only
        rcases hsend : network.send connection request next with ⟨sent, last⟩
        rw [Network.send_recording log hsend]
        cases sent with
        | canceled =>
          obtain ⟨seen, hseen, hrest⟩ := ih last (log ++ [.wrote connection request])
          refine ⟨.wrote connection request :: seen, List.forall_mem_cons.2 ⟨hwrote, hseen⟩, ?_⟩
          rw [List.append_assoc] at hrest
          exact hrest
        | reply status bytes | failed reason | silence => exact ⟨_, hone, rfl⟩

/-- **A post that is watched comes to the same**, and all that is seen is what the client may do. -/
theorem postBytes_recording (pool : Pool) (world : σ) (log : WireLog) :
    ∃ seen : WireLog, (∀ event ∈ seen, client.Does event) ∧
      client.postBytes network.recording body timeout pool (world, log) =
        logged (client.postBytes network body timeout pool world) (log ++ seen) := by
  unfold postBytes
  cases requestTarget? client.path timeout with
  | none => exact ⟨[], by simp, by simp [logged]⟩
  | some target => exact client.send_recording network target body timeout pool world log

/-- What is seen of one post. -/
def seen (pool : Pool) (world : σ) : WireLog :=
  (client.postBytes network.recording body timeout pool (world, [])).2.2.2

variable {client network body timeout} in
theorem does_of_mem_seen {pool : Pool} {world : σ} {event : WireEvent}
    (h : event ∈ client.seen network body timeout pool world) : client.Does event := by
  obtain ⟨seen, hseen, hpost⟩ := client.postBytes_recording network body timeout pool world []
  unfold Client.seen at h
  rw [hpost] at h
  exact hseen event (by simpa [logged] using h)

end Client

end Admission
