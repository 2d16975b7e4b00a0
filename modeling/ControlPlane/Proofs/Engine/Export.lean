/-
What is listed of an engine, against what it did.

A message is counted once, under its code, when it is answered, and nothing else counts messages
(`commands_step`). So the counts are those of the messages that were answered since the engine was
new (`tallies_run`), and with the noted sizes they are what the listing shows (`listing_matches`).
-/
import ControlPlane.Proofs.Engine.Integrity
import ControlPlane.Proofs.Engine.Requests
import ControlPlane.Proofs.Engine.Sizes

namespace ControlPlane

/-- The entries of a map by its keys, whose values a function has. -/
theorem SortedMap.entries_eq {κ α : Type} [Ranked κ] {m : SortedMap κ α} {f : κ → α}
    (h : ∀ k v, m.get? k = some v → f k = v) : m.entries = m.keys.map fun k => (k, f k) := by
  rw [keys, List.map_map]
  refine (List.map_id _).symm.trans (List.map_congr_left fun x hx => ?_)
  exact Prod.ext rfl (h x.1 x.2 (mem_entries_iff.1 hx)).symm

/-! ## Counting what was dispatched -/

/-- A message that was answered: its code, and the status of the reply. -/
structure Dispatched where
  code : UInt16
  status : Status
  deriving DecidableEq

/-- How many of some messages came under a code, and how many of these did not succeed, as far as counters
go. -/
def CommandCount.ofCalls (calls : List Dispatched) (code : UInt16) : CommandCount where
  requests := .ofNat (calls.countP fun d => d.code = code)
  failures := .ofNat (calls.countP fun d => d.code = code ∧ d.status ≠ .ok)

namespace Metrics

/-- The codes that are counted are those of some messages, and the counts are how many there were. -/
def Tallies (m : Metrics) (calls : List Dispatched) : Prop :=
  ∀ code, m.commands.get? code = if ∃ d ∈ calls, d.code = code then some (.ofCalls calls code) else none

variable {m : Metrics} {calls : List Dispatched}

theorem tallies_zero : zero.Tallies [] := fun _ => rfl

theorem Tallies.command (h : m.Tallies calls) (code : UInt16) : m.command code = .ofCalls calls code := by
  rw [Metrics.command, h code]
  split
  · rfl
  · next unused =>
    -- Where no message came under the code there is nothing to count.
    have requests : calls.countP (fun d => d.code = code) = 0 := by
      rw [List.countP_eq_zero]
      intro d hd same
      exact unused ⟨d, hd, of_decide_eq_true same⟩
    have failures : calls.countP (fun d => d.code = code ∧ d.status ≠ .ok) = 0 := by
      rw [List.countP_eq_zero]
      intro d hd failed
      exact unused ⟨d, hd, (of_decide_eq_true failed).1⟩
    rw [CommandCount.ofCalls, requests, failures]
    rfl

/-- One more message is one more count. -/
theorem Tallies.answered (h : m.Tallies calls) (d : Dispatched) :
    (m.answered d.code d.status.isOk).Tallies (calls ++ [d]) := by
  intro code
  simp only [Metrics.answered, SortedMap.get?_insert, rank_inj, h.command]
  by_cases same : d.code = code
  · subst same
    have counted : ∃ d' ∈ calls ++ [d], d'.code = d.code := ⟨d, by simp, rfl⟩
    rw [if_pos rfl, if_pos counted]
    by_cases ok : d.status = .ok
    · simp [CommandCount.ofCalls, Status.isOk, ok, UInt64.ofNat_add]
    · simp [CommandCount.ofCalls, Status.isOk, ok, UInt64.ofNat_add]
  · have others : (∃ d' ∈ calls ++ [d], d'.code = code) ↔ ∃ d' ∈ calls, d'.code = code := by simp [same]
    rw [if_neg same, h code]
    simp only [others, CommandCount.ofCalls, List.countP_append, List.countP_singleton, same, false_and,
      decide_false, Bool.false_eq_true, if_false, Nat.add_zero]

theorem Tallies.mem_keys_iff (h : m.Tallies calls) {code : UInt16} :
    code ∈ m.commands.keys ↔ ∃ d ∈ calls, d.code = code := by
  rw [SortedMap.mem_keys_iff, h code]
  split
  · next used => exact iff_of_true ⟨_, rfl⟩ used
  · next unused => exact iff_of_false (fun ⟨_, found⟩ => nomatch found) unused

theorem Tallies.entries (h : m.Tallies calls) :
    m.commands.entries = m.commands.keys.map fun code => (code, .ofCalls calls code) := by
  refine SortedMap.entries_eq fun code c found => ?_
  rw [← h.command code, Metrics.command, found]
  rfl

end Metrics

namespace Engine

variable {e : Engine} {calls : List Dispatched}

/-- What becomes of the message that an event brings, if it does. -/
def dispatched? (e : Engine) (event : Event) : Option Dispatched :=
  event.message?.map fun (client, m, now) => ⟨m.code, (e.dispatch client m now).reply.status⟩

/-- What becomes of the messages of a history, one after the other. -/
def dispatched (e : Engine) : List Event → List Dispatched
  | [] => []
  | event :: history => (e.dispatched? event).toList ++ (e.step event).1.dispatched history

/-! ## What counts messages -/

theorem commands_noteSizes (e : Engine) : e.noteSizes.metrics.commands = e.metrics.commands := rfl

theorem commands_ageFamily (e : Engine) (f : Family) (now : Nat) :
    (e.ageFamily f now).1.metrics.commands = e.metrics.commands := by
  rw [fst_ageFamily, fst_takeConnections]
  simp only [count, withConnections, Metrics.commands_add]

theorem commands_age (e : Engine) (now : Nat) : (e.age now).1.metrics.commands = e.metrics.commands := by
  obtain running | stopped := Bool.eq_false_or_eq_true e.running
  · rw [fst_age running, commands_noteSizes, commands_ageFamily, commands_ageFamily]
  · rw [age_of_not_running stopped]

theorem commands_shutdown (e : Engine) : e.shutdown.metrics.commands = e.metrics.commands := by
  unfold shutdown
  split
  · rfl
  · rfl

/-- A message is counted under its code, by what becomes of it, and nothing else is. -/
theorem commands_step (e : Engine) (event : Event) :
    (e.step event).1.metrics.commands =
      match e.dispatched? event with
      | some d => (e.metrics.answered d.code d.status.isOk).commands
      | none => e.metrics.commands := by
  induction event using Event.byMessage with
  | message event client m now hm =>
    have handled := commands_handle e client m now
    rw [step_of_message hm, dispatched?, hm]
    simp only [dispatch, Option.map_some, Metrics.answered, Metrics.command, handled]
  | malformed client octets now error hd =>
    have none : e.dispatched? (.datagram client octets now) = none := by
      simp [dispatched?, Event.message?, hd, Except.toOption]
    rw [step_of_malformed hd, none]
    exact Metrics.commands_add ..
  | age now => exact commands_age e now
  | packet f key octets now =>
    obtain ⟨_, _, counted⟩ := account_writes e f key octets now
    simp only [step, counted]
    rfl
  | acquire client =>
    obtain ⟨_, acquired⟩ := acquire_writes e client
    rw [acquired]
    rfl
  | health | register | unregister | unreachable | release => rfl
  | shutdown => exact commands_shutdown e

theorem tallies_step (h : e.metrics.Tallies calls) (event : Event) :
    (e.step event).1.metrics.Tallies (calls ++ (e.dispatched? event).toList) := by
  have counted := commands_step e event
  cases answer : e.dispatched? event with
  | none =>
    rw [answer] at counted
    intro code
    rw [counted, h code, Option.toList_none, List.append_nil]
  | some d =>
    rw [answer] at counted
    intro code
    rw [counted]
    exact h.answered d code

/-- After a history the counts are also of what was dispatched during it. -/
theorem tallies_run (h : e.metrics.Tallies calls) (history : List Event) :
    (e.run history).metrics.Tallies (calls ++ e.dispatched history) := by
  induction history generalizing e calls with
  | nil => simpa only [dispatched, List.append_nil, run_nil] using h
  | cons event history ih =>
    have later := ih (tallies_step h event)
    rwa [List.append_assoc] at later

/-- **The listing matches the engine.** Whatever happens to a new engine, the sizes that are listed are
those that its tables have. Behind them stand the codes of the messages that it was sent, of whatever kind
and also after its shutdown, in ascending order and each of them once: with the number of messages under the
code, and of those that were not answered with `Status.ok`. -/
theorem listing_matches {config : Config} {start : Engine} (made : ofConfig config = .ok start)
    (history : List Event) :
    let e := start.run history
    let calls := start.dispatched history
    ∃ codes : List UInt16, codes.Pairwise (· < ·) ∧ (∀ code, code ∈ codes ↔ ∃ d ∈ calls, d.code = code) ∧
      e.metrics.listing =
        Counter.all.map (fun c => (c.name, e.metrics.count c)) ++
          [("route_count", .ofNat e.routes.size),
            ("conntrack_count", .ofNat (e.connections.v4.size + e.connections.v6.size)),
            ("client_count", .ofNat e.subscribers.size)] ++
          codes.flatMap fun code =>
            [("cmd_" ++ Hex.lower 4 code.toNat ++ "_requests", .ofNat (calls.countP fun d => d.code = code)),
              ("cmd_" ++ Hex.lower 4 code.toNat ++ "_failures",
                .ofNat (calls.countP fun d => d.code = code ∧ d.status ≠ .ok))] := by
  intro e calls
  have tallies : e.metrics.Tallies calls := by
    obtain ⟨_, -, new⟩ := ofConfig_eq_ok made
    have none : start.metrics.Tallies [] := by
      rw [new]
      exact Metrics.tallies_zero
    exact tallies_run none history
  have noted : e.metrics.sizes = e.sizes := Reachable.noted ⟨config, start, history, made, rfl⟩
  refine ⟨e.metrics.commands.keys, ?_, fun _ => tallies.mem_keys_iff, ?_⟩
  · exact e.metrics.commands.ascending.map _ fun _ _ lt => UInt16.lt_iff_toNat_lt.2 lt
  · rw [Metrics.listing, noted, tallies.entries, List.flatMap_map]
    rfl

namespace Small

/-- A route is registered, once more in vain, and after the shutdown somebody wants the lock. -/
def refusedLater : List Event :=
  [send .route .register (.route (route 7)), .register client client.address,
    send .route .register (.route (route 7)), .shutdown, send .lockSession .register .empty]

end Small

theorem listing_matches_small :
    let e := Small.start.run Small.refusedLater
    ofConfig Small.config = .ok Small.start ∧
      Small.start.dispatched Small.refusedLater =
        [⟨0x0313, .ok⟩, ⟨0x0313, .alreadyRegistered⟩, ⟨0x0015, .internalFailure⟩] ∧
      e.metrics.listing =
        Counter.all.map (fun c => (c.name, e.metrics.count c)) ++
          [("route_count", 1), ("conntrack_count", 0), ("client_count", 0), ("cmd_0015_requests", 1),
            ("cmd_0015_failures", 1), ("cmd_0313_requests", 2), ("cmd_0313_failures", 1)] := by
  intro e
  have calls : Small.start.dispatched Small.refusedLater =
      [⟨0x0313, .ok⟩, ⟨0x0313, .alreadyRegistered⟩, ⟨0x0015, .internalFailure⟩] := by decide +kernel
  obtain ⟨codes, ascending, dispatched, listing⟩ := @listing_matches Small.config Small.start rfl Small.refusedLater
  rw [calls] at dispatched listing
  have known : codes = [0x0015, 0x0313] := by
    have same : codes.Perm [0x0015, 0x0313] := by
      refine (List.perm_ext_iff_of_nodup (ascending.imp UInt16.ne_of_lt) (by decide)).2 fun code => ?_
      rw [dispatched code]
      simp only [List.mem_cons, List.not_mem_nil]
      grind
    exact same.eq_of_pairwise (fun _ _ _ _ lt gt => absurd gt (UInt16.lt_asymm lt)) ascending (by decide)
  refine ⟨rfl, calls, ?_⟩
  rw [known] at listing
  refine listing.trans ?_
  decide +kernel

end Engine

end ControlPlane
