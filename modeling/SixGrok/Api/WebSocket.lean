import SixGrok.Api.Live
import SixGrok.Framework.Broadcast

namespace SixGrok.Api

open SixGrok.Framework SixGrok.Core

/-- `broadcast::channel(2048)`. -/
def liveCapacity : Nat := 2048

section WebSocket

variable {φ ν κ ω : Type} {parser : Parser φ ν}

/-- Where the task of a client stands in `websocket`, with the number of the message that it waits
for. The `Closed` arm is never taken: the task itself holds a sender. -/
inductive ClientPhase (κ : Type) (parser : Parser φ ν) where
  | upgrading
  | receiving (next : Nat)
  | sending (received : Received (κ × Packet parser)) (next : Nat)
  | gone

structure Client (κ : Type) (parser : Parser φ ν) where
  phase : ClientPhase κ parser := .upgrading
  -- what has gone over the socket: the texts of packets, and the notices of lag
  sent : List (Received (κ × Packet parser)) := []

/-- The channel that keeps so many. -/
def liveChannel : Broadcast liveCapacity (κ × Packet parser) := Channel.broadcast liveCapacity

section Channel

variable (channel : Broadcast liveCapacity (κ × Packet parser))

/-- What the task of a client does with its turn. The first argument is whether a `socket.send` of
this turn would succeed. -/
def clientTurn (delivered : Bool) (state : AppState κ parser) (client : Client κ parser) :
    Client κ parser :=
  match client.phase with
  | .upgrading => { client with phase := .receiving state.live.length }
  | .receiving next =>
    match channel.recv state.live next with
    | none => client
    | some (received, next) => { client with phase := .sending received next }
  | .sending received next =>
    if delivered then { client with phase := .receiving next, sent := client.sent ++ [received] }
    else { client with phase := .gone }
  | .gone => client

/-- The service with the clients that watch it. -/
structure Watched (κ ω : Type) (parser : Parser φ ν) where
  service : Tasks κ (Connection parser) (AppState κ parser)
  clients : ω → Client κ parser

inductive Turn (κ ω : Type) where
  | agent (c : κ) (sent : Except ErrorKind Nat)
  | client (w : ω) (delivered : Bool)
  deriving DecidableEq

variable [DecidableEq κ] [DecidableEq ω] (codec : Codec) (settings : Settings)

def Watched.turn (watched : Watched κ ω parser) : Turn κ ω → Watched κ ω parser
  | .agent c sent =>
    { watched with service := watched.service.turn (connectionTurn codec settings parser) c sent }
  | .client w delivered =>
    let client := clientTurn channel delivered watched.service.shared (watched.clients w)
    { watched with clients := Function.update watched.clients w client }

/-- The service and its clients after they have had their turns in this order. -/
def watch (startedAtMs : Int64) (parser : Parser φ ν)
    (channel : Broadcast liveCapacity (κ × Packet parser)) (input : κ → List ReadOutcome)
    (turns : List (Turn κ ω)) : Watched κ ω parser :=
  turns.foldl (Watched.turn channel codec settings)
    { service := started startedAtMs parser input, clients := fun _ => {} }

/-- The turns of the connections. -/
def agentTurns (turns : List (Turn κ ω)) : List (κ × Except ErrorKind Nat) :=
  turns.filterMap fun turn => match turn with | .agent c sent => some (c, sent) | .client _ _ => none

omit [DecidableEq κ] [DecidableEq ω] in
theorem agentTurns_append (turns more : List (Turn κ ω)) :
    agentTurns (turns ++ more) = agentTurns turns ++ agentTurns more := List.filterMap_append ..

section Client

variable {live : List (κ × Packet parser)} {start : Nat}

/-- What a client has been sent, with what it is just being sent, is the log of the broadcasts from
where it subscribed to where it stands. -/
def Client.Watches (live : List (κ × Packet parser)) (start : Nat) (client : Client κ parser) : Prop :=
  match client.phase with
  | .upgrading => client.sent = []
  | .receiving next => Follows liveCapacity live start client.sent next
  | .sending received next => Follows liveCapacity live start (client.sent ++ [received]) next
  | .gone => ∃ next, Follows liveCapacity live start client.sent next

omit [DecidableEq κ]

theorem Client.Watches.mono {client : Client κ parser} (h : client.Watches live start)
    {live' : List (κ × Packet parser)} (more : live <+: live') : client.Watches live' start := by
  obtain ⟨phase, sent⟩ := client
  cases phase with
  | upgrading => exact h
  | receiving next => exact Follows.mono h more
  | sending received next => exact Follows.mono h more
  | gone =>
    obtain ⟨next, hfollows⟩ := h
    exact ⟨next, hfollows.mono more⟩

/-- A client that has subscribed watches from there on. -/
theorem clientTurn_watches (delivered : Bool) {state : AppState κ parser} {client : Client κ parser}
    (subscribed : client.phase ≠ .upgrading) (h : client.Watches state.live start) :
    let next := clientTurn channel delivered state client
    next.phase ≠ .upgrading ∧ next.Watches state.live start := by
  intro next
  obtain ⟨phase, sent⟩ := client
  cases phase with
  | upgrading => exact absurd rfl subscribed
  | receiving number =>
    simp only [next, clientTurn]
    cases hrecv : channel.recv state.live number with
    | none => exact ⟨subscribed, h⟩
    | some pair => exact ⟨nofun, Follows.recv channel h hrecv⟩
  | sending received number =>
    cases delivered with
    | true => exact ⟨nofun, h⟩
    | false => exact ⟨nofun, Follows.before h⟩
  | gone => exact ⟨subscribed, h⟩

theorem Client.Watches.follows {client : Client κ parser} (h : client.Watches live start)
    (subscribed : client.phase ≠ .upgrading) :
    ∃ next, Follows liveCapacity live start client.sent next := by
  obtain ⟨phase, sent⟩ := client
  cases phase with
  | upgrading => exact absurd rfl subscribed
  | receiving next => exact ⟨next, h⟩
  | sending received next => exact Follows.before h
  | gone => exact h

/-- A client that waits for a message has not been overtaken by more messages than are kept. -/
def Client.keepsUp (live : List (κ × Packet parser)) (client : Client κ parser) : Prop :=
  ∀ next, client.phase = .receiving next → live.length ≤ next + liveCapacity

/-- No message has been missed so far, nor is the client about to be told of any. -/
def Client.Whole (client : Client κ parser) : Prop :=
  match client.phase with
  | .sending received _ => skipped (client.sent ++ [received]) = 0
  | _ => skipped client.sent = 0

theorem Client.Whole.sent {client : Client κ parser} (h : client.Whole) :
    skipped client.sent = 0 := by
  obtain ⟨phase, sent⟩ := client
  cases phase with
  | sending received next =>
    simp only [Client.Whole, skipped_append] at h
    exact (Nat.add_eq_zero_iff.mp h).1
  | upgrading | receiving | gone => exact h

theorem clientTurn_whole (delivered : Bool) {state : AppState κ parser} {client : Client κ parser}
    (keeps : client.keepsUp state.live) (h : client.Whole) :
    (clientTurn channel delivered state client).Whole := by
  have hsent := h.sent
  obtain ⟨phase, sent⟩ := client
  cases phase with
  | upgrading => exact h
  | receiving next =>
    simp only [clientTurn]
    cases hrecv : channel.recv state.live next with
    | none => exact h
    | some pair =>
      obtain ⟨received, next'⟩ := pair
      cases received with
      | message a =>
        show skipped (sent ++ [.message a]) = 0
        rw [skipped_append, skipped_message, hsent]
      | lagged missed =>
        obtain ⟨hpos, hnext, hlen⟩ := channel.lagged hrecv
        have hkept := keeps next rfl
        omega
  | sending received next =>
    cases delivered with
    | true => exact h
    | false => exact hsent
  | gone => exact h

/-- What a receiver gets brings it forward. -/
theorem recv_forward {next next' : Nat} {received : Received (κ × Packet parser)}
    (h : channel.recv live next = some (received, next')) : next < next' := by
  cases received with
  | message a =>
    obtain ⟨-, rfl⟩ := channel.message h
    exact Nat.lt_succ_self next
  | lagged missed =>
    obtain ⟨hpos, rfl, -⟩ := channel.lagged h
    exact Nat.lt_add_of_pos_right hpos

/-- A client whose socket works has had everything after so many turns of its own. -/
theorem clientTurn_catchesUp {state : AppState κ parser} {client : Client κ parser}
    (subscribed : client.phase ≠ .upgrading) (h : client.Watches state.live start)
    (present : client.phase ≠ .gone) :
    ∃ turns, ((clientTurn channel true state)^[turns] client).phase =
      .receiving state.live.length := by
  -- by what is still to come, over the two turns that each message takes
  have receiving (behind : Nat) : ∀ client : Client κ parser, client.Watches state.live start →
      ∀ next, client.phase = .receiving next → state.live.length ≤ next + behind →
      ∃ turns, ((clientTurn channel true state)^[turns] client).phase =
        .receiving state.live.length := by
    induction behind with
    | zero =>
      intro client hwatches next hphase hle
      rw [Client.Watches, hphase] at hwatches
      have hall : next = state.live.length := Nat.le_antisymm hwatches.le_length hle
      exact ⟨0, hall ▸ hphase⟩
    | succ behind ih =>
      intro client hwatches next hphase hle
      cases hrecv : channel.recv state.live next with
      | none =>
        have hlast := channel.waits.mp hrecv
        exact ih client hwatches next hphase (by omega)
      | some pair =>
        have hstep : clientTurn channel true state client =
            { client with phase := .sending pair.1 pair.2 } := by
          rw [clientTurn, hphase]
          simp only [hrecv]
        have hsecond : clientTurn channel true state (clientTurn channel true state client) =
            { client with phase := .receiving pair.2, sent := client.sent ++ [pair.1] } := by
          rw [hstep]
          rfl
        have hnext := recv_forward channel hrecv
        have hthere : client.phase ≠ .upgrading := by
          rw [hphase]
          nofun
        obtain ⟨hfirst, hwatches⟩ := clientTurn_watches channel true hthere hwatches
        obtain ⟨turns, hturns⟩ := ih _ (clientTurn_watches channel true hfirst hwatches).2
          pair.2 (by rw [hsecond]) (by omega)
        exact ⟨turns + 2, hturns⟩
  have hturn := clientTurn_watches channel true subscribed h
  obtain ⟨phase, sent⟩ := client
  cases phase with
  | upgrading => exact absurd rfl subscribed
  | receiving next => exact receiving _ _ h next rfl (Nat.le_add_left ..)
  | sending received next =>
    obtain ⟨turns, hturns⟩ := receiving _ _ hturn.2 next rfl (Nat.le_add_left ..)
    exact ⟨turns + 1, hturns⟩
  | gone => exact absurd rfl present

end Client

section Watch

variable (startedAtMs : Int64) (parser) (input : κ → List ReadOutcome)

theorem watch_append_singleton (turns : List (Turn κ ω)) (turn : Turn κ ω) :
    watch codec settings startedAtMs parser channel input (turns ++ [turn]) =
      (watch codec settings startedAtMs parser channel input turns).turn channel codec settings
        turn := by
  rw [watch, List.foldl_append]
  rfl

/-- The clients change nothing for the connections. -/
theorem watch_service (turns : List (Turn κ ω)) :
    (watch codec settings startedAtMs parser channel input turns).service =
      serve codec settings startedAtMs parser input (agentTurns turns) := by
  induction turns using List.reverseRecOn with
  | nil => rfl
  | append_singleton turns turn ih =>
    rw [watch_append_singleton, agentTurns_append, serve, Tasks.run_append]
    cases turn with
    | agent c sent =>
      rw [Watched.turn, ih]
      rfl
    | client w delivered => exact ih

variable {parser} in
/-- The logs of the updates and of the broadcasts only grow. -/
theorem turn_grows (watched : Watched κ ω parser) (turn : Turn κ ω) :
    let next := watched.turn channel codec settings turn
    watched.service.shared.updates <+: next.service.shared.updates ∧
      watched.service.shared.live <+: next.service.shared.live := by
  intro next
  cases turn with
  | client w delivered => exact ⟨List.prefix_rfl, List.prefix_rfl⟩
  | agent c sent =>
    exact (step_delivery (connectionTurn_step codec settings c sent
      (watched.service.own c, watched.service.shared))).grows

theorem watch_grows (turns more : List (Turn κ ω)) :
    let now := watch codec settings startedAtMs parser channel input turns
    let later := watch codec settings startedAtMs parser channel input (turns ++ more)
    now.service.shared.updates <+: later.service.shared.updates ∧
      now.service.shared.live <+: later.service.shared.live := by
  induction more using List.reverseRecOn with
  | nil =>
    rw [List.append_nil]
    exact ⟨List.prefix_rfl, List.prefix_rfl⟩
  | append_singleton more turn ih =>
    rw [← List.append_assoc, watch_append_singleton]
    have hturn := turn_grows channel codec settings
      (watch codec settings startedAtMs parser channel input (turns ++ more)) turn
    exact ⟨ih.1.trans hturn.1, ih.2.trans hturn.2⟩

variable {parser} in
/-- What a turn means to one client: nothing, or its own move while the service stands still. -/
theorem turn_client (watched : Watched κ ω parser) (turn : Turn κ ω) (w : ω) :
    let next := watched.turn channel codec settings turn
    next.clients w = watched.clients w ∨ ∃ delivered, turn = .client w delivered ∧
      next.clients w = clientTurn channel delivered watched.service.shared (watched.clients w) ∧
      next.service = watched.service := by
  intro next
  cases turn with
  | agent c sent => exact .inl rfl
  | client other delivered =>
    by_cases h : w = other
    · subst h
      exact .inr ⟨delivered, rfl, Function.update_self .., rfl⟩
    · exact .inl (Function.update_of_ne h ..)

variable {parser} in
theorem turn_watches {watched : Watched κ ω parser} {w : ω} {start : Nat} (turn : Turn κ ω)
    (subscribed : (watched.clients w).phase ≠ .upgrading)
    (h : (watched.clients w).Watches watched.service.shared.live start) :
    let next := watched.turn channel codec settings turn
    (next.clients w).phase ≠ .upgrading ∧
      (next.clients w).Watches next.service.shared.live start := by
  intro next
  rcases turn_client channel codec settings watched turn w with
    hsame | ⟨delivered, -, hclient, hservice⟩
  · rw [hsame]
    exact ⟨subscribed, h.mono (turn_grows channel codec settings watched turn).2⟩
  · rw [hclient, hservice]
    exact clientTurn_watches channel delivered subscribed h

theorem watch_watches (turns : List (Turn κ ω)) (w : ω) :
    let watched := watch codec settings startedAtMs parser channel input turns
    watched.clients w = {} ∨ ∃ start, (watched.clients w).phase ≠ .upgrading ∧
      (watched.clients w).Watches watched.service.shared.live start := by
  induction turns using List.reverseRecOn with
  | nil => exact .inl rfl
  | append_singleton turns turn ih =>
    rw [watch_append_singleton]
    generalize watch codec settings startedAtMs parser channel input turns = watched at ih ⊢
    rcases ih with hfresh | ⟨start, hsubscribed, hwatches⟩
    · rcases turn_client channel codec settings watched turn w with
        hsame | ⟨delivered, -, hclient, hservice⟩
      · exact .inl (hsame.trans hfresh)
      · right
        rw [hclient, hservice, hfresh]
        exact ⟨_, nofun, Follows.start (Nat.le_refl _)⟩
    · exact .inr ⟨start, turn_watches channel codec settings turn hsubscribed hwatches⟩

variable {channel codec settings startedAtMs parser input} in
theorem watch_upgrading {turns : List (Turn κ ω)} {w : ω}
    (absent : ∀ delivered, Turn.client w delivered ∉ turns) :
    (watch codec settings startedAtMs parser channel input turns).clients w = {} := by
  induction turns using List.reverseRecOn with
  | nil => rfl
  | append_singleton turns turn ih =>
    rw [watch_append_singleton]
    generalize watch codec settings startedAtMs parser channel input turns = watched at ih ⊢
    rcases turn_client channel codec settings watched turn w with hsame | ⟨delivered, rfl, -, -⟩
    · rw [hsame]
      exact ih fun delivered hmem => absent delivered (List.mem_append_left _ hmem)
    · exact absurd (List.mem_append_right _ (List.mem_singleton_self _)) (absent delivered)

/-- A client watches from the moment of its first turn. -/
theorem watch_first {before : List (Turn κ ω)} {w : ω}
    (first : ∀ delivered, Turn.client w delivered ∉ before) (delivered : Bool)
    (after : List (Turn κ ω)) :
    let subscribed := (watch codec settings startedAtMs parser channel input before).service.shared.live
    let watched := watch codec settings startedAtMs parser channel input
      (before ++ .client w delivered :: after)
    (watched.clients w).phase ≠ .upgrading ∧
      (watched.clients w).Watches watched.service.shared.live subscribed.length := by
  induction after using List.reverseRecOn with
  | nil =>
    rw [watch_append_singleton, Watched.turn, watch_upgrading first]
    simp only [Function.update_self]
    exact ⟨nofun, Follows.start (Nat.le_refl _)⟩
  | append_singleton after turn ih =>
    rw [← List.cons_append, ← List.append_assoc, watch_append_singleton]
    exact turn_watches channel codec settings turn ih.1 ih.2

variable {channel codec settings startedAtMs parser input} in
theorem watch_whole {turns : List (Turn κ ω)} {w : ω}
    (keeps : ∀ front, front <+: turns →
      let watched := watch codec settings startedAtMs parser channel input front
      (watched.clients w).keepsUp watched.service.shared.live) :
    ((watch codec settings startedAtMs parser channel input turns).clients w).Whole := by
  induction turns using List.reverseRecOn with
  | nil => rfl
  | append_singleton turns turn ih =>
    have hbefore := ih fun front hfront => keeps front (hfront.trans (List.prefix_append ..))
    have hkeeps := keeps turns (List.prefix_append ..)
    rw [watch_append_singleton]
    generalize watch codec settings startedAtMs parser channel input turns = watched at hbefore hkeeps ⊢
    rcases turn_client channel codec settings watched turn w with hsame | ⟨delivered, -, hclient, -⟩
    · rw [hsame]
      exact hbefore
    · rw [hclient]
      exact clientTurn_whole channel delivered hkeeps hbefore

theorem watch_delivered (turns : List (Turn κ ω)) (c : κ) :
    entriesOf c (watch codec settings startedAtMs parser channel input turns).service.shared.updates =
      entriesOf c (watch codec settings startedAtMs parser channel input turns).service.shared.live ++
        ((watch codec settings startedAtMs parser channel input turns).service.own c).undelivered
          c := by
  rw [watch_service]
  exact serve_delivered parser codec settings startedAtMs input (agentTurns turns) c

variable {parser channel codec settings startedAtMs input} in
/-- Between frames nothing that is stored waits for its broadcast. -/
theorem watch_idle {turns : List (Turn κ ω)} {c : κ}
    (idle : ((watch codec settings startedAtMs parser channel input turns).service.own
      c).betweenFrames) :
    entriesOf c (watch codec settings startedAtMs parser channel input turns).service.shared.updates =
      entriesOf c
        (watch codec settings startedAtMs parser channel input turns).service.shared.live := by
  rw [watch_delivered, idle.undelivered, List.append_nil]

variable {parser channel codec settings startedAtMs input} in
/-- The frames that a client is sent of one agent are frames that the agent's connection carries,
in their order, and none of them twice. -/
theorem messages_carried {turns : List (Turn κ ω)} {sent : List (Received (κ × Packet parser))}
    (among : (messages sent).Sublist
      (watch codec settings startedAtMs parser channel input turns).service.shared.live) (c : κ) :
    (framesOf c (messages sent)).Sublist (carried ServiceError codec (input c)).1 := by
  have haccounted := serve_accounted parser codec settings startedAtMs input (agentTurns turns) c
  rw [← watch_service] at haccounted
  obtain ⟨lost, hframes, -⟩ := haccounted
  have hdelivered := watch_delivered parser channel codec settings startedAtMs input turns c
  have hlive :
      framesOf c (watch codec settings startedAtMs parser channel input turns).service.shared.live <+:
      framesOf c (watch codec settings startedAtMs parser channel input turns).service.shared.updates :=
    List.IsPrefix.map _ ⟨_, hdelivered.symm⟩
  have hmessages := (among.filter (fun entry => entry.1 = c)).map (fun entry => entry.2.frame)
  rw [hframes]
  exact (hmessages.trans hlive.sublist).trans (List.sublist_append_left ..)

/-- At no moment of this order of turns was the client further behind than messages are kept. -/
def keptUp (w : ω) (turns : List (Turn κ ω)) : Prop :=
  ∀ front, front <+: turns →
    let watched := watch codec settings startedAtMs parser channel input front
    (watched.clients w).keepsUp watched.service.shared.live

variable {parser} in
/-- The client waits for the next broadcast. -/
def Watched.caughtUp (watched : Watched κ ω parser) (w : ω) : Prop :=
  (watched.clients w).phase = .receiving watched.service.shared.live.length

section Overtaken

/-- The second of two agents stores and broadcasts its packet while the first, which has stored its
own, waits to broadcast. Somebody subscribes in between. -/
def overtaken : List (Turn Bool Unit) :=
  List.replicate 11 (.agent false (.ok 0)) ++ .client () true ::
    (List.replicate 12 (.agent true (.ok 0)) ++ .agent false (.ok 0) ::
      List.replicate 4 (.client () true))

def watchOvertaken : Watched Bool Unit logCodeParser :=
  watch messagePack ⟨1, none⟩ 0 logCodeParser liveChannel twoAgents overtaken

theorem overtaken_subscribes : ∃ after,
    overtaken = List.replicate 11 (.agent false (.ok 0)) ++ .client () true :: ([] ++ after) := ⟨_, rfl⟩

theorem overtaken_first (delivered : Bool) :
    Turn.client () delivered ∉ List.replicate 11 (.agent false (.ok 0)) := by
  intro hmem
  cases List.eq_of_mem_replicate hmem

theorem overtaken_idle (c : Bool) : (watchOvertaken.service.own c).betweenFrames := by
  left
  cases c with
  | false => rfl
  | true => rfl

theorem overtaken_keptUp :
    keptUp logCodeParser liveChannel messagePack ⟨1, none⟩ 0 twoAgents () overtaken := by
  intro front ⟨more, hfront⟩ watched next _
  have hgrows :=
    (watch_grows logCodeParser liveChannel messagePack ⟨1, none⟩ 0 twoAgents front more).2
  rw [hfront] at hgrows
  have htwo : watchOvertaken.service.shared.live.length = 2 := rfl
  have hfew : watched.service.shared.live.length ≤ 2 := htwo ▸ hgrows.length_le
  exact hfew.trans (Nat.le_add_left_of_le (by decide))

end Overtaken

variable {before : List (Turn κ ω)} {w : ω}

/-- What a client is sent is the log of the broadcasts from where it subscribed, up to the one that it
waits for: each in its place, or in a number of them that it is told in their place to have missed
when the channel has run so far ahead. It goes on waiting only when it has had everything. -/
theorem websocket_accounts (first : ∀ delivered, Turn.client w delivered ∉ before)
    (delivered : Bool) (after : List (Turn κ ω)) :
    let subscribed := (watch codec settings startedAtMs parser channel input before).service.shared.live
    let watched := watch codec settings startedAtMs parser channel input
      (before ++ .client w delivered :: after)
    let client := watched.clients w
    let live := watched.service.shared.live
    subscribed <+: live ∧ client.phase ≠ .upgrading ∧ client.Watches live subscribed.length ∧
    (∀ next, client.phase = .receiving next →
      subscribed.length + (messages client.sent).length + skipped client.sent = next ∧
      (messages client.sent).Sublist ((live.take next).drop subscribed.length) ∧
      (skipped client.sent = 0 →
        client.sent = ((live.take next).drop subscribed.length).map .message) ∧
      (channel.recv live next = none ↔ next = live.length)) ∧
    ∀ c, (framesOf c (messages client.sent)).Sublist (carried ServiceError codec (input c)).1 := by
  intro subscribed watched client live
  obtain ⟨hsubscribed, hwatches⟩ :=
    watch_first parser channel codec settings startedAtMs input first delivered after
  have hgrows := watch_grows parser channel codec settings startedAtMs input before
    (.client w delivered :: after)
  refine ⟨hgrows.2, hsubscribed, hwatches, ?_, ?_⟩
  · intro next hphase
    have hfollows : Follows liveCapacity live subscribed.length client.sent next := by
      rw [Client.Watches, hphase] at hwatches
      exact hwatches
    refine ⟨hfollows.accounts, hfollows.sublist, hfollows.gapless, channel.waits.trans ?_⟩
    exact ⟨fun hall => Nat.le_antisymm hfollows.le_length hall, fun hall => Nat.le_of_eq hall.symm⟩
  · obtain ⟨next, hfollows⟩ := hwatches.follows hsubscribed
    exact messages_carried
      (hfollows.sublist.trans ((List.drop_sublist ..).trans (List.take_sublist ..)))

/-- Two packets are broadcast after the client has subscribed. -/
theorem websocket_accounts_overtaken :
    let client := watchOvertaken.clients ()
    client.phase = .receiving 2 ∧ (messages client.sent).map (fun entry => entry.2.value) = [8, 7] ∧
      skipped client.sent = 0 := by
  obtain ⟨-, -, -, hwaits, -⟩ := websocket_accounts logCodeParser liveChannel messagePack ⟨1, none⟩ 0
    twoAgents overtaken_first true _
  have hphase : (watchOvertaken.clients ()).phase = .receiving 2 := rfl
  have hmessages : (messages (watchOvertaken.clients ()).sent).map (fun entry => entry.2.value) =
      [8, 7] := by decide
  have htwo := congrArg List.length hmessages
  rw [List.length_map] at htwo
  obtain ⟨haccounts, -⟩ := hwaits 2 hphase
  refine ⟨hphase, hmessages, ?_⟩
  change _ + (messages (watchOvertaken.clients ()).sent).length +
    skipped (watchOvertaken.clients ()).sent = 2 at haccounts
  rw [htwo] at haccounts
  exact Nat.add_eq_left.mp (haccounts.trans rfl)

variable {turns after : List (Turn κ ω)} {delivered : Bool}

variable {parser channel codec settings startedAtMs input} in
/-- A client that has kept up and waits has been sent exactly what was broadcast since it
subscribed. -/
theorem sent_all (subscribes : turns = before ++ .client w delivered :: after)
    (first : ∀ delivered, Turn.client w delivered ∉ before)
    (kept : keptUp parser channel codec settings startedAtMs input w turns)
    (waits : (watch codec settings startedAtMs parser channel input turns).caughtUp w)
    {rest : List (κ × Packet parser)}
    (broadcasts : (watch codec settings startedAtMs parser channel input turns).service.shared.live =
      (watch codec settings startedAtMs parser channel input before).service.shared.live ++ rest) :
    ((watch codec settings startedAtMs parser channel input turns).clients w).sent =
      rest.map .message := by
  have hwatches :=
    (watch_first parser channel codec settings startedAtMs input first delivered after).2
  rw [← subscribes, Client.Watches, waits] at hwatches
  have hsent := hwatches.gapless (watch_whole kept).sent
  rwa [List.take_length, broadcasts, List.drop_left] at hsent

/-- When all is quiet, a client that has kept up has been sent exactly the packets of the store
that had not been broadcast yet when it subscribed, each of them once. -/
theorem websocket_complete (subscribes : turns = before ++ .client w delivered :: after)
    (first : ∀ delivered, Turn.client w delivered ∉ before)
    (kept : keptUp parser channel codec settings startedAtMs input w turns)
    (waits : (watch codec settings startedAtMs parser channel input turns).caughtUp w)
    (idle : ∀ c, ((watch codec settings startedAtMs parser channel input turns).service.own
      c).betweenFrames) :
    let subscribed := (watch codec settings startedAtMs parser channel input before).service.shared.live
    let watched := watch codec settings startedAtMs parser channel input turns
    (watched.clients w).sent = (messages (watched.clients w).sent).map .message ∧
      watched.service.shared.updates.Perm (subscribed ++ messages (watched.clients w).sent) := by
  intro subscribed watched
  obtain ⟨rest, hlive⟩ := (watch_grows parser channel codec settings startedAtMs input before
    (.client w delivered :: after)).2
  rw [← subscribes] at hlive
  have hsent := sent_all subscribes first kept waits hlive.symm
  have hmessages : messages (watched.clients w).sent = rest := by
    rw [hsent, messages_map]
  rw [hmessages]
  refine ⟨hsent, ?_⟩
  rw [hlive]
  exact perm_of_entriesOf fun c => watch_idle (idle c)

theorem websocket_complete_overtaken :
    let sent := (watchOvertaken.clients ()).sent
    sent = (messages sent).map .message ∧
      watchOvertaken.service.shared.updates.Perm (messages sent) := by
  obtain ⟨after, hsubscribes⟩ := overtaken_subscribes
  exact websocket_complete logCodeParser liveChannel messagePack ⟨1, none⟩ 0 twoAgents hsubscribes
    overtaken_first overtaken_keptUp rfl overtaken_idle

/-- What is stored too late for the answer to a client that subscribes before it polls is broadcast to
it or still to be broadcast, at every moment. A client that has kept up and waits has been sent all of
these broadcasts, and when all is quiet nothing is still to be broadcast: then it has missed nothing. -/
theorem websocket_after_poll (subscribes : turns = before ++ .client w delivered :: after)
    (first : ∀ delivered, Turn.client w delivered ∉ before) {polled more : List (Turn κ ω)}
    (polls : after = polled ++ more) {store : Store ν}
    (answered : (watch codec settings startedAtMs parser channel input
      (before ++ .client w delivered :: polled)).service.shared.read = some store) :
    let subscribed := (watch codec settings startedAtMs parser channel input before).service.shared.live
    let watched := watch codec settings startedAtMs parser channel input turns
    let idle := ∀ c, (watched.service.own c).betweenFrames
    let reached := keptUp parser channel codec settings startedAtMs input w turns ∧ watched.caughtUp w
    ∃ stored later rest, watched.service.shared.updates = stored ++ later ∧
      watched.service.shared.live = subscribed ++ rest ∧
      (∀ limit, packets limit store = (stored.map fun update => update.2.value).rtake
        (min (clamp (limit.getD 100) 1 1000) (min settings.historyLimit stored.length))) ∧
      (∀ c, entriesOf c later <:+
        entriesOf c rest ++ (watched.service.own c).undelivered c) ∧
      (idle → later.Subperm rest) ∧
      (reached → (watched.clients w).sent = rest.map .message) ∧
      (idle → reached → later.Subperm (messages (watched.clients w).sent)) := by
  intro subscribed watched idle reached
  have hall : turns = (before ++ .client w delivered :: polled) ++ more := by
    rw [subscribes, polls, List.append_assoc, List.cons_append]
  have hbefore := watch_grows parser channel codec settings startedAtMs input before
    (.client w delivered :: polled)
  have hpolled := watch_grows parser channel codec settings startedAtMs input
    (before ++ .client w delivered :: polled) more
  rw [← hall] at hpolled
  obtain ⟨later, hlater⟩ := hpolled.1
  obtain ⟨seen, hseen⟩ := hbefore.2
  obtain ⟨rest, hrest⟩ := hbefore.2.trans hpolled.2
  have hsuffix (c : κ) : entriesOf c later <:+
      entriesOf c rest ++ (watched.service.own c).undelivered c := by
    have hthen := watch_delivered parser channel codec settings startedAtMs input
      (before ++ .client w delivered :: polled) c
    have hnow := watch_delivered parser channel codec settings startedAtMs input turns c
    rw [← hseen, entriesOf_append, List.append_assoc] at hthen
    rw [← hlater, ← hrest, entriesOf_append, entriesOf_append, hthen] at hnow
    simp only [List.append_assoc] at hnow
    exact ⟨_, (List.append_assoc ..).trans (List.append_cancel_left hnow)⟩
  have hidle (quiet : idle) : later.Subperm rest := by
    apply subperm_of_entriesOf_sublist
    intro c
    have hlast := hsuffix c
    rw [(quiet c).undelivered, List.append_nil] at hlast
    exact hlast.sublist
  have hsent (h : reached) : (watched.clients w).sent = rest.map .message :=
    sent_all subscribes first h.1 h.2 hrest.symm
  refine ⟨_, later, rest, hlater.symm, hrest.symm, ?_, hsuffix, hidle, hsent, ?_⟩
  · intro limit
    rw [watch_service] at answered ⊢
    have hstore := serve_read answered
    rw [hstore, packets_stored, stored_received, List.map_map, List.length_map]
    rfl
  · intro quiet h
    rw [hsent h, messages_map]
    exact hidle quiet

/-- It polls at once: the answer has the first packet, and the second comes over the socket, where
the first comes once more. -/
theorem websocket_after_poll_overtaken :
    ∃ stored later, watchOvertaken.service.shared.updates = stored ++ later ∧
      stored.map (fun update => update.2.value) = [7] ∧
      later.map (fun update => update.2.value) = [8] ∧
      later.Subperm (messages (watchOvertaken.clients ()).sent) := by
  obtain ⟨after, hsubscribes⟩ := overtaken_subscribes
  obtain ⟨stored, later, rest, hupdates, -, hanswer, -, -, -, hlater⟩ :=
    websocket_after_poll logCodeParser liveChannel messagePack ⟨1, none⟩ 0 twoAgents hsubscribes
      overtaken_first rfl rfl
  have hboth : stored.map (fun update => update.2.value) ++
      later.map (fun update => update.2.value) = [7, 8] := by
    rw [← List.map_append, ← hupdates]
    decide
  have hlast := hanswer none
  change [7] = _ at hlast
  have hone : stored.map (fun update => update.2.value) = [7] ∧
      later.map (fun update => update.2.value) = [8] := by
    rcases stored with _ | ⟨first, _ | ⟨second, stored⟩⟩
    · simp at hlast
    · simpa using hboth
    · -- the limit keeps one packet, and that would be the second
      simp only [List.map_cons, List.cons_append, List.cons.injEq, List.append_eq_nil_iff,
        List.map_eq_nil_iff] at hboth
      obtain ⟨hfirst, hsecond, rfl, -⟩ := hboth
      rw [List.map_cons, List.map_cons, hfirst, hsecond] at hlast
      cases hlast
  exact ⟨stored, later, hupdates, hone.1, hone.2, hlater overtaken_idle ⟨overtaken_keptUp, rfl⟩⟩

section Recovery

/-- While only this client has turns. -/
theorem watch_alone (turns : List (Turn κ ω)) (w : ω) (n : Nat) :
    (watch codec settings startedAtMs parser channel input
        (turns ++ List.replicate n (.client w true))).service =
      (watch codec settings startedAtMs parser channel input turns).service ∧
    (watch codec settings startedAtMs parser channel input
        (turns ++ List.replicate n (.client w true))).clients w =
      (clientTurn channel true
          (watch codec settings startedAtMs parser channel input turns).service.shared)^[n]
        ((watch codec settings startedAtMs parser channel input turns).clients w) := by
  induction n with
  | zero =>
    rw [List.replicate_zero, List.append_nil]
    exact ⟨rfl, rfl⟩
  | succ n ih =>
    rw [List.replicate_succ', ← List.append_assoc, watch_append_singleton, Watched.turn, ih.1, ih.2,
      Function.iterate_succ_apply']
    exact ⟨rfl, Function.update_self ..⟩

/-- However far a client has fallen behind, it has caught up after so many turns of its own while the
service stands still, unless its socket has failed. -/
theorem websocket_catches_up (turns : List (Turn κ ω)) (w : ω) :
    ((watch codec settings startedAtMs parser channel input turns).clients w).phase = .gone ∨
    ∃ n, (watch codec settings startedAtMs parser channel input
        (turns ++ List.replicate n (.client w true))).caughtUp w := by
  by_cases hgone : ((watch codec settings startedAtMs parser channel input turns).clients w).phase =
      .gone
  · exact .inl hgone
  right
  obtain hfresh | ⟨start, hsubscribed, hwatches⟩ :=
    watch_watches parser channel codec settings startedAtMs input turns w
  · -- the turn in which it subscribes
    obtain ⟨hservice, hclient⟩ := watch_alone parser channel codec settings startedAtMs input turns w 1
    refine ⟨1, ?_⟩
    rw [Watched.caughtUp, hclient, hservice, hfresh]
    rfl
  · obtain ⟨n, hn⟩ := clientTurn_catchesUp channel hsubscribed hwatches hgone
    obtain ⟨hservice, hclient⟩ := watch_alone parser channel codec settings startedAtMs input turns w n
    refine ⟨n, ?_⟩
    rw [Watched.caughtUp, hclient, hservice]
    exact hn

end Recovery

end Watch

end Channel

end WebSocket

end SixGrok.Api
