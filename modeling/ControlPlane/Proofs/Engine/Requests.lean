/-
How many messages were answered, by the listing of what is counted.

Each command code has its own count, which comes into being with the first message under the
code. However they are spread over the codes, their sum grows by one with each message
(`requests_dispatch`).
-/
import ControlPlane.Proofs.Engine.Event
import ControlPlane.Proofs.Engine.SocketCounts

namespace ControlPlane

/-! ## Sums over a map -/

namespace SortedMap

variable {κ α : Type} [Ranked κ]

/-- The sum of what the values count, which wraps as counters do. -/
def total (g : α → UInt64) (m : SortedMap κ α) : UInt64 := m.entries.foldr (fun x sum => g x.2 + sum) 0

/-- An entry that is put in adds what it counts, and takes away what the one before it did. -/
theorem total_insert (g : α → UInt64) (m : SortedMap κ α) (k : κ) (v : α) :
    (m.insert k v).total g + ((m.get? k).map g).getD 0 = m.total g + g v := by
  obtain ⟨entries, ascending⟩ := m
  simp only [total, insert, get?]
  induction entries with
  | nil => simp [place]
  | cons x entries ih =>
    obtain ⟨above, rest⟩ := List.pairwise_cons.1 ascending
    rw [place]
    split
    · next lt =>
      -- What comes first has a greater key, so the key is new.
      have absent : ((x :: entries).find? fun y => rank y.1 == rank k) = none := by
        refine List.find?_eq_none.2 fun y hy => ?_
        rcases List.mem_cons.1 hy with rfl | hy
        · simpa using Nat.ne_of_gt lt
        · simpa using Nat.ne_of_gt (Nat.lt_trans lt (above y hy))
      simp only [absent, List.foldr_cons, Option.map_none, Option.getD_none]
      grind
    · split
      · next lt =>
        have other : (rank x.1 == rank k) = false := by simpa using Nat.ne_of_lt lt
        have := ih rest
        simp only [List.foldr_cons, List.find?_cons, other]
        grind
      · have same : (rank x.1 == rank k) = true := by simp; omega
        simp only [List.foldr_cons, List.find?_cons, same, Option.map_some, Option.getD_some]
        grind

end SortedMap

namespace Metrics

/-- Whether a name in the listing is that of a count of requests. -/
def countsRequests (name : String) : Bool := "_requests".toList.isSuffixOf name.toList

/-- The sum of the counts of requests that are listed. -/
def requests (m : Metrics) : UInt64 :=
  (m.listing.filter fun x => countsRequests x.1).foldr (fun x sum => x.2 + sum) 0

theorem countsRequests_requests (name : String) : countsRequests (name ++ "_requests") = true := by
  simp only [countsRequests, String.toList_append, List.isSuffixOf_iff_suffix]
  exact List.suffix_append ..

theorem countsRequests_failures (name : String) : countsRequests (name ++ "_failures") = false := by
  rw [Bool.eq_false_iff]
  intro suffix
  simp only [countsRequests, String.toList_append, List.isSuffixOf_iff_suffix] at suffix
  have length : "_requests".toList.length = "_failures".toList.length := by simp
  have both := List.suffix_of_suffix_length_le suffix (List.suffix_append ..) (Nat.le_of_eq length)
  exact absurd (String.toList_inj.1 (both.eq_of_length length)) (by decide)

/-- Of the listing there remains one line for each command. -/
theorem filter_listing (m : Metrics) :
    (m.listing.filter fun x => countsRequests x.1) =
      m.commands.entries.map fun x => ("cmd_" ++ Hex.lower 4 x.1.toNat ++ "_requests", x.2.requests) := by
  have counters : ∀ c ∈ Counter.all, countsRequests c.name = false := by decide +kernel
  have sizes : ∀ name ∈ ["route_count", "conntrack_count", "client_count"], countsRequests name = false := by
    decide +kernel
  have head : ((Counter.all.map fun c => (c.name, m.count c)) ++
      [("route_count", m.sizes.routes), ("conntrack_count", m.sizes.connections),
        ("client_count", m.sizes.clients)]).filter (fun x => countsRequests x.1) = [] := by
    simp_all [List.filter_eq_nil_iff]
  rw [listing, List.filter_append, head, List.nil_append]
  induction m.commands.entries with
  | nil => rfl
  | cons x entries ih =>
    rw [List.flatMap_cons, List.filter_append, ih]
    simp only [List.filter_cons, countsRequests_requests, countsRequests_failures, if_true, Bool.false_eq_true,
      if_false, List.filter_nil, List.map_cons, List.cons_append, List.nil_append]

theorem requests_eq (m : Metrics) : m.requests = m.commands.total (·.requests) := by
  rw [requests, filter_listing, List.foldr_map]
  rfl

@[simp] theorem requests_zero : zero.requests = 0 := requests_eq zero

/-- Each message that is answered is one more request. -/
theorem requests_answered (m : Metrics) (code : UInt16) (ok : Bool) :
    (m.answered code ok).requests = m.requests + 1 := by
  have sum := m.commands.total_insert (·.requests) code
    { requests := (m.command code).requests + 1
      failures := if ok then (m.command code).failures else (m.command code).failures + 1 }
  have before : ((m.commands.get? code).map (·.requests)).getD 0 = (m.command code).requests := by
    rw [command]
    cases m.commands.get? code <;> rfl
  rw [before] at sum
  rw [requests_eq, requests_eq, answered]
  grind

end Metrics

namespace Engine

@[simp] theorem requests_withCounts (e : Engine) (malformed delivered : UInt64) :
    (e.withCounts malformed delivered).metrics.requests = e.metrics.requests := by
  rw [Metrics.requests_eq, Metrics.requests_eq]
  rfl

theorem commands_dropRoute (e : Engine) (id : UInt32) :
    (e.dropRoute id).1.metrics.commands = e.metrics.commands := by
  cases h : e.routes.get? id with
  | none => rw [dropRoute_of_get?_eq_none h]
  | some r =>
    rw [dropRoute_of_get? h]
    simp only [families, List.foldl_cons, List.foldl_nil, cascade_eq, count, withConnections, Metrics.commands_add]

theorem commands_dropRoutes (e : Engine) (ids : List UInt32) :
    (e.dropRoutes ids).1.metrics.commands = e.metrics.commands := by
  induction ids generalizing e with
  | nil => rfl
  | cons id ids ih => rw [fst_dropRoutes_cons, ih, commands_dropRoute]

theorem commands_perform (e : Engine) (client : ClientId) (command : Command) (action : Option Action)
    (r : Wire.Record) (now : Nat) :
    (e.perform client command action r now).engine.metrics.commands = e.metrics.commands := by
  have performed := perform_performed e client command action r now
  generalize e.perform client command action r now = o at performed
  cases performed with
  | route action r =>
    have handled := handleRoute_handled e client action r
    generalize e.handleRoute client action r = o at handled
    cases handled with
    | dropped => exact commands_dropRoute e r.id
    | listed =>
      obtain ⟨c, moved⟩ := list_engine e .routes action
      rw [moved]
      rfl
    | registered | refused => rfl
  | connection f action c => rw [(handleConnection_writes e action c now f).metrics (by simp) (by simp)]
  | reset f => exact commands_dropRoutes ..
  | beside resets routes connections metrics events => rw [metrics]

theorem commands_handle (e : Engine) (client : ClientId) (m : Wire.Message) (now : Nat) :
    (e.handle client m now).engine.metrics.commands = e.metrics.commands := by
  obtain running | stopped := Bool.eq_false_or_eq_true e.running
  · cases hk : m.kind with
    | register =>
      cases read : Wire.Registration.decode m.payload with
      | ok backChannel =>
        rw [handle_joining running hk read]
        rfl
      | error fault =>
        rw [handle_misread running hk read]
        rfl
    | unregister =>
      rw [handle_leaving running hk]
      rfl
    | command =>
      rw [handle_command running hk]
      obtain ⟨command, action, r, hm⟩ | ⟨status, -, refuses⟩ := execute_cases hk
      · rw [execute_of_carries hm]
        exact commands_perform ..
      · rw [refuses]
        rfl
  · rw [handle_of_not_running stopped]
    rfl

theorem requests_dispatch (e : Engine) (client : ClientId) (m : Wire.Message) (now : Nat) :
    (e.dispatch client m now).engine.metrics.requests = e.metrics.requests + 1 := by
  refine (Metrics.requests_answered ..).trans ?_
  rw [Metrics.requests_eq, commands_handle, Metrics.requests_eq]

end Engine

end ControlPlane
