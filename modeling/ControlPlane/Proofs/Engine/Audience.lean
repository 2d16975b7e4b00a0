/-
Who is told of what concerns all clients.

Where a client is reached is what the history said of it last: that it is registered with a
back-channel, or that it left, or could not be reached, or was forgotten with all others
(`reach?_run`). An event for all goes to exactly the clients that were registered last, each
once and in the order of their addresses (`audience_exact`).
-/
import ControlPlane.Proofs.Engine.Aging
import ControlPlane.Proofs.Engine.Lock

namespace ControlPlane

/-! ## The order of addresses -/

/-- IPv4 addresses come first, and addresses of one family come as numbers do. -/
def IpAddress.Before : IpAddress → IpAddress → Prop
  | .v4 a, .v4 b => a < b
  | .v4 _, .v6 _ => True
  | .v6 _, .v4 _ => False
  | .v6 a, .v6 b => a < b

/-- The address decides, then the port, then the zone. -/
def SocketAddress.Before (a b : SocketAddress) : Prop :=
  a.ip.Before b.ip ∨ a.ip = b.ip ∧ (a.port < b.port ∨ a.port = b.port ∧ a.zone < b.zone)

theorem IpAddress.rank_lt_iff {a b : IpAddress} : a.rank < b.rank ↔ a.Before b := by
  cases a with
  | v4 x =>
    cases b with
    | v4 y => rfl
    | v6 y =>
      have := x.isLt
      simp only [rank, Before, Bytes.span_sixteen, iff_true]
      omega
  | v6 x =>
    cases b with
    | v4 y =>
      have := y.isLt
      simp only [rank, Before, Bytes.span_sixteen, iff_false]
      omega
    | v6 y => simp only [rank, Before, BitVec.lt_def, Nat.add_lt_add_iff_left]

theorem SocketAddress.rank_lt_iff {a b : SocketAddress} : a.rank < b.rank ↔ a.Before b := by
  have ports := a.port.toNat_lt
  have ports' := b.port.toNat_lt
  have zones := a.zone.toNat_lt
  have zones' := b.zone.toNat_lt
  have ip : a.ip = b.ip ↔ a.ip.rank = b.ip.rank := ⟨congrArg _, IpAddress.rank_injective⟩
  simp only [Before, ← IpAddress.rank_lt_iff, ip, UInt16.lt_iff_toNat_lt, UInt32.lt_iff_toNat_lt, rank,
    Bytes.span_two, Bytes.span_four, ← UInt16.toNat_inj]
  omega

/-! ## Subscribers -/

namespace Subscribers

variable {s : Subscribers} {c d : ClientId} {b : SocketAddress}

/-- Where a client is reached, if it is. -/
def reach? (s : Subscribers) (c : ClientId) : Option SocketAddress :=
  ((s.get? c).filter (·.reachable)).map (·.backChannel)

theorem mem_live_iff : (c, b) ∈ s.live ↔ s.reach? c = some b := by
  simp only [live, List.mem_map, List.mem_filter, reach?, Option.map_eq_some_iff, Option.filter_eq_some_iff]
  constructor
  · rintro ⟨⟨c', sub⟩, ⟨stored, reachable⟩, same⟩
    cases same
    exact ⟨sub, ⟨SortedMap.get?_of_mem stored, reachable⟩, rfl⟩
  · rintro ⟨sub, ⟨stored, reachable⟩, rfl⟩
    exact ⟨(c, sub), ⟨SortedMap.mem_of_get? stored, reachable⟩, rfl⟩

theorem live_ascending (s : Subscribers) : s.live.Pairwise fun x y => x.1.address.Before y.1.address := by
  simp only [live, List.pairwise_map]
  refine (s.table.ascending.filter _).imp fun lt => ?_
  exact SocketAddress.rank_lt_iff.1 lt

theorem reach?_register : (s.register c b).reach? d = if c = d then some b else s.reach? d := by
  simp only [reach?, get?_register, rank_inj]
  split <;> rfl

theorem reach?_unregister : (s.unregister c).reach? d = if c = d then none else s.reach? d := by
  simp only [reach?, get?_unregister, rank_inj]
  split <;> rfl

theorem reach?_markUnreachable : (s.markUnreachable c).reach? d = if c = d then none else s.reach? d := by
  simp only [reach?, markUnreachable, get?, SortedMap.get?_modify, rank_inj]
  split
  · cases s.table.get? d <;> rfl
  · rfl

end Subscribers

namespace Engine

open Wire (Message)

variable {e start : Engine} {event : Event} {history : List Event} {c client : ClientId} {m : Message} {now : Nat}

/-! ## What a history says of a client -/

/-- What a message says of its sender, once it is answered: where the sender is reached, or
that it is reached no more. -/
def announced? (e : Engine) (client : ClientId) (m : Message) (now : Nat) : Option (Option SocketAddress) :=
  if (e.dispatch client m now).reply.status = .ok then
    match m.kind with
    | .register => (Wire.Registration.decode m.payload).toOption.map some
    | .unregister => some none
    | .command => none
  else none

/-- What an event says of a client: where it is reached from now on, or that it is reached no
more. Only a shutdown of an engine that runs says something, and that of all clients. -/
def signal? (e : Engine) (c : ClientId) (event : Event) : Option (Option SocketAddress) :=
  match event with
  | .message .. | .datagram .. =>
    event.message?.bind fun (client, m, now) => if client = c then e.announced? client m now else none
  | .register client backChannel => if client = c then some (some backChannel) else none
  | .unregister client | .unreachable client => if client = c then some none else none
  | .shutdown => if e.running then some none else none
  | .age _ | .packet .. | .health _ | .acquire _ | .release _ => none

/-- What a history says of a client, in order. -/
def signals (e : Engine) (c : ClientId) : List Event → List (Option SocketAddress)
  | [] => []
  | event :: history => (e.signal? c event).toList ++ (e.step event).1.signals c history

theorem signal?_of_message (hm : event.message? = some (client, m, now)) :
    e.signal? c event = if client = c then e.announced? client m now else none := by
  cases event with
  | message | datagram => rw [signal?, hm, Option.bind_some]
  | _ => cases hm

/-- A client that joins or leaves is reached, or not, as soon as it is answered. -/
theorem reach?_dispatch (e : Engine) (client : ClientId) (m : Message) (now : Nat) (c : ClientId) :
    (e.dispatch client m now).engine.subscribers.reach? c =
      (if client = c then e.announced? client m now else none).getD (e.subscribers.reach? c) := by
  have status : (e.dispatch client m now).reply.status = (e.handle client m now).reply.status := rfl
  have subscribers : (e.dispatch client m now).engine.subscribers = (e.handle client m now).engine.subscribers := rfl
  simp only [announced?, status, subscribers]
  obtain running | stopped := Bool.eq_false_or_eq_true e.running
  · cases hk : m.kind with
    | register =>
      cases read : Wire.Registration.decode m.payload with
      | ok backChannel =>
        simp only [handle_joining running hk read]
        refine Subscribers.reach?_register.trans ?_
        by_cases same : client = c <;> simp [same, Wire.Reply.ok, Wire.Reply.ofStatus, Except.toOption]
      | error fault => simp [handle_misread running hk read, Engine.refused, Wire.Reply.ofStatus]
    | unregister =>
      simp only [handle_leaving running hk]
      refine Subscribers.reach?_unregister.trans ?_
      by_cases same : client = c <;> simp [same, Wire.Reply.ok, Wire.Reply.ofStatus]
    | command =>
      have same : (e.handle client m now).engine.subscribers = e.subscribers := by
        rw [handle_command running hk]
        obtain ⟨command, action, r, hm⟩ | ⟨status, -, refuses⟩ := execute_cases hk
        · rw [execute_of_carries hm]
          exact (perform_writes ..).subscribers
        · rw [refuses]
          rfl
      simp [same]
  · simp [handle_of_not_running stopped, Engine.refused, Wire.Reply.ofStatus]

/-- Where a client is reached after an event is what the event says of it. -/
theorem reach?_step (e : Engine) (event : Event) (c : ClientId) :
    (e.step event).1.subscribers.reach? c = (e.signal? c event).getD (e.subscribers.reach? c) := by
  induction event using Event.byMessage with
  | message event client m now hm =>
    rw [step_of_message hm, signal?_of_message hm]
    exact reach?_dispatch ..
  | malformed client octets now error hd =>
    rw [step_of_malformed hd]
    simp [signal?, Event.message?, hd, Except.toOption, count]
  | age now =>
    obtain ⟨_, _, aged⟩ := age_writes e now
    simp only [step, aged, signal?, Option.getD_none]
  | packet f key octets now =>
    obtain ⟨_, _, counted⟩ := account_writes e f key octets now
    simp only [step, counted, signal?, Option.getD_none]
  | register client backChannel =>
    refine Subscribers.reach?_register.trans ?_
    by_cases same : client = c <;> simp [signal?, same]
  | unregister client =>
    refine Subscribers.reach?_unregister.trans ?_
    by_cases same : client = c <;> simp [signal?, same]
  | unreachable client =>
    refine Subscribers.reach?_markUnreachable.trans ?_
    by_cases same : client = c <;> simp [signal?, same]
  | acquire client =>
    obtain ⟨_, acquired⟩ := acquire_writes e client
    simp only [acquired, signal?, Option.getD_none]
  | health | release => rfl
  | shutdown =>
    simp only [step, shutdown, signal?]
    split <;> rfl

/-- Where a client is reached is what the history said of it last. -/
theorem reach?_run (e : Engine) (history : List Event) (c : ClientId) :
    (e.run history).subscribers.reach? c = (e.signals c history).getLast?.getD (e.subscribers.reach? c) := by
  induction history generalizing e with
  | nil => rfl
  | cons event history ih =>
    rw [run_cons, ih, reach?_step, signals, List.getLast?_append]
    cases (e.signal? c event) <;> cases (signals _ c history).getLast? <;> rfl

/-! ## Main result -/

/-- The connections that ageing takes away, IPv4 first, with their families. -/
def agedAway (e : Engine) (now : Nat) : List (Family × Wire.Connection) :=
  families.flatMap fun f =>
    ((e.connections.get f).connections.entries.filter fun x =>
      x.1 ∉ ((e.step (.age now)).1.connections.get f).connections.numbers).map fun x => (f, x.2.connection)

theorem agedAway_of_stopped (stopped : e.running = false) (now : Nat) : e.agedAway now = [] := by
  have same : (e.step (.age now)).1 = e := by simp only [step, age_of_not_running stopped]
  refine List.flatMap_eq_nil_iff.2 fun f _ => ?_
  rw [same, List.map_eq_nil_iff, List.filter_eq_nil_iff]
  intro x hx
  simpa using Sequenced.mem_numbers_iff.2 ⟨x.2, Sequenced.mem_entries_iff.1 hx⟩

theorem agedAway_eq (running : e.running = true) (now : Nat) :
    e.agedAway now = families.flatMap fun f => (e.idle now f).map fun x => (f, x.2.connection) := by
  have tables (f : Family) : (e.step (.age now)).1.connections.get f = e.sweep now f := by
    simp only [step, age_eq running]
    cases f <;> rfl
  refine List.flatMap_congr fun f _ => congrArg _ (List.filter_congr fun x hx => ?_)
  rw [tables, Sequenced.numbers, SortedMap.keys]
  show decide (x.1 ∉ (e.sweep now f).connections.entries.map (·.1)) = _
  rw [sweep, ConnectionTable.entries_sweep, Bool.eq_iff_iff, decide_eq_true_iff, Sequenced.fst_mem_filter hx,
    Bool.not_eq_true', Bool.not_eq_false]

/-- Of each connection that ageing takes away the same clients are told. -/
theorem events_age {config : Config} (fresh : ofConfig config = .ok start) (history : List Event) (now : Nat) :
    let e := start.run history
    (e.age now).2 = (e.agedAway now).flatMap fun x => e.subscribers.live.map (removal x.1 x.2) := by
  intro e
  obtain running | stopped := Bool.eq_false_or_eq_true e.running
  · rw [age_eq running, agedAway_eq running, List.flatMap_assoc]
    refine List.flatMap_congr fun f _ => ?_
    rw [List.flatMap_map]
    refine List.flatMap_congr fun x hx => ?_
    have stored := Sequenced.mem_entries_iff.1 (List.mem_filter.1 hx).1
    rw [broadcast_removed, family_of_stored fresh stored]
  · rw [age_of_not_running stopped, agedAway_of_stopped stopped]
    rfl

/-- The event that tells a client of what the health monitor saw. -/
def alarm (h : Wire.HealthEvent) (client : ClientId × SocketAddress) : Notification where
  client := client.1
  backChannel := client.2
  message := { kind := .command, code := Command.healthEvent.code, payload := h.encode }

/-- **What concerns all goes to those who are registered.** After any history the clients
that can be reached are those of which the history said last that they are registered, each
with the back-channel of that registration. They are listed once each in the order of their
addresses. What the health monitor sees is told to each of them, and so is each connection
that ageing takes away, and to nobody else. -/
theorem audience_exact {config : Config} {start : Engine} (fresh : ofConfig config = .ok start)
    (history : List Event) :
    let e := start.run history
    let audience := e.subscribers.live
    (∀ c b, (c, b) ∈ audience ↔ (start.signals c history).getLast? = some (some b)) ∧
      audience.Pairwise (fun x y => x.1.address.Before y.1.address) ∧
      (∀ h, (e.step (.health h)).2 = .notified (audience.map (alarm h))) ∧
      ∀ now, (e.step (.age now)).2 =
        .notified ((e.agedAway now).flatMap fun x => audience.map (removal x.1 x.2)) := by
  intro e audience
  refine ⟨fun c b => ?_, e.subscribers.live_ascending, fun h => ?_, fun now => ?_⟩
  · have nobody : start.subscribers.reach? c = none := by
      obtain ⟨_, -, rfl⟩ := ofConfig_eq_ok fresh
      rfl
    rw [Subscribers.mem_live_iff, reach?_run, nobody]
    cases (start.signals c history).getLast? <;> simp
  · exact congrArg Answer.notified (Subscribers.broadcast_eq ..)
  · exact congrArg Answer.notified (events_age fresh history now)

namespace Small

/-- Three clients register, the last under an IPv6 address. One cannot be reached any more,
registers again with another back-channel, and another one leaves. -/
def guests : List Event :=
  let sixth : ClientId := ⟨{ ip := .v6 1, port := 7000 }⟩
  [.register sixth sixth.address, .register other other.address, .register Small.client Small.client.address,
    .unreachable other, .message other ⟨.register, 0, Wire.Registration.encode Small.client.address⟩ 0,
    .message Small.client ⟨.unregister, 0, []⟩ 0]

end Small

/-- The client that registered again comes before the IPv6 client, under its new
back-channel. -/
theorem audience_exact_small :
    let e := Small.start.run Small.guests
    let sixth : ClientId := ⟨{ ip := .v6 1, port := 7000 }⟩
    ofConfig Small.config = .ok Small.start ∧
      (Small.start.signals Small.other Small.guests) =
        [some Small.other.address, none, some Small.client.address] ∧
      (Small.other, Small.client.address) ∈ e.subscribers.live ∧
      (∀ b, (Small.client, b) ∉ e.subscribers.live) ∧
      ∀ h, (e.step (.health h)).2 =
        .notified [alarm h (Small.other, Small.client.address), alarm h (sixth, sixth.address)] := by
  intro e sixth
  obtain ⟨members, -, alarms, -⟩ := @audience_exact Small.config Small.start rfl Small.guests
  have told : Small.start.signals Small.other Small.guests =
      [some Small.other.address, none, some Small.client.address] := by decide +kernel
  have gone : Small.start.signals Small.client Small.guests = [some Small.client.address, none] := by
    decide +kernel
  have live : e.subscribers.live = [(Small.other, Small.client.address), (sixth, sixth.address)] := by
    decide +kernel
  refine ⟨rfl, told, (members _ _).2 (by rw [told]; rfl), fun b => ?_, fun h => ?_⟩
  · rw [members, gone]
    simp
  · rw [alarms, live]
    rfl

end Engine

end ControlPlane
