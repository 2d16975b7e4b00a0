/-
What an engine stores can be sent.

A route is registered through an interface of the configuration, and its next hop
was read in a slot of its family; an interface's name is short when the
configuration was accepted, and a name that was read has no NUL. A connection is the
one that was read, but for what is counted. So the record of whatever is stored comes
back from the wire (`canonical_route`, `canonical_connection`).

Routes are added by registrations only (`step_all`), which carries a property from
each record that is registered to every route that is stored.
-/
import ControlPlane.Config.Validation
import ControlPlane.Proofs.Engine.Crossing
import ControlPlane.Proofs.Engine.Lock
import ControlPlane.Proofs.Engine.Origin
import ControlPlane.Proofs.Wire.Reading

namespace ControlPlane

/-! ## The names of the interfaces -/

namespace Config

/-- Where nothing is wrong with interfaces, no name is too long. -/
theorem name_fits_of_interfaceFaults {names : List String} {ids : List UInt32} {place : Nat}
    {settings : List InterfaceSettings} (h : interfaceFaults names ids place settings = []) :
    ∀ s ∈ settings, s.name.utf8ByteSize ≤ maxName := by
  induction settings generalizing names ids place with
  | nil =>
    intro s hs
    cases hs
  | cons s settings ih =>
    simp only [interfaceFaults, List.append_eq_nil_iff] at h
    obtain ⟨⟨⟨⟨name, -⟩, -⟩, -⟩, rest⟩ := h
    intro s' hs
    rcases List.mem_cons.1 hs with rfl | hs
    · unfold nameFaults whenever at name
      split at name
      · cases name
      · split at name
        · cases name
        · next fits => exact Nat.not_lt.1 (by simpa using fits)
    · exact ih rest s' hs

theorem name_fits {c : Config} (accepted : c.validate.hasErrors = false) :
    ∀ s ∈ c.interfaces, s.name.utf8ByteSize ≤ maxName := by
  have none : c.faults = [] := by
    simpa only [Diagnosis.hasErrors, validate, Bool.not_eq_false', List.isEmpty_iff] using accepted
  simp only [faults, List.append_eq_nil_iff] at none
  exact name_fits_of_interfaceFaults none.2

end Config

theorem Sequenced.values_map {α β : Type} (s : Sequenced α) (f : α → β) :
    (s.map f).values = s.values.map f := by
  simp only [Sequenced.values, Sequenced.table_map, SortedMap.values, SortedMap.map, List.map_map]
  rfl

namespace InterfaceTable

variable {t t' : InterfaceTable}

/-- The names never change. -/
theorem names_of_frame (h : t'.frame = t.frame) :
    t'.interfaces.values.map (·.name) = t.interfaces.values.map (·.name) := by
  have names : ∀ t : InterfaceTable, t.frame.values.map (·.name) = t.interfaces.values.map (·.name) := by
    intro t
    rw [frame, Sequenced.values_map, List.map_map]
    rfl
  rw [← names, h, names]

end InterfaceTable

/-! ## A property of all routes -/

namespace RouteTable

/-- Every stored route has a property. -/
def All (P : Route → Prop) (t : RouteTable) : Prop := ∀ r ∈ t.routes.values, P r

variable {P : Route → Prop} {t t' : RouteTable}

theorem all_empty : All P .empty := by
  intro r hr
  cases hr

end RouteTable

namespace Engine

open Wire (Message)

variable {P : Route → Prop} {e e' : Engine} {event : Event}

/-- What holds of the routes that an event registers and of all that are stored, and is
kept when a packet is counted, holds of all that are stored after the event. -/
theorem step_all (h : e.routes.All P) (hit : ∀ r, P r → P { r with hits := r.hits + 1 })
    (new : ∀ client m now r, event.message? = some (client, m, now) →
      m.Carries .route (some .register) (.route r) → ∀ family egress, r.family = some family →
      e.interfaces.resolve? r.interface = some egress →
      P (.registered r family egress (some client))) :
    (e.step event).1.routes.All P := by
  intro r hr
  obtain ⟨seq, stored⟩ := Sequenced.mem_values_iff.1 hr
  cases step_routeArises stored with
  | registered admitted hf resolved _ made =>
    obtain ⟨m, now, hm, carries, -⟩ := admitted
    exact made ▸ new _ m now _ hm carries _ _ hf resolved
  | @kept old before made =>
    have held : P old := h old (Sequenced.mem_values_iff.2 ⟨seq, before⟩)
    rw [made]
    split
    · exact hit old held
    · exact held

/-! ## Whatever is stored has a canonical record -/

/-- Every interface has a name that a field has room for. -/
def ShortNames (e : Engine) : Prop :=
  ∀ name ∈ e.interfaces.interfaces.values.map (·.name), name.utf8ByteSize < Wire.Layout.nameWidth

theorem shortNames_ofConfig {config : Config} (accepted : config.validate.hasErrors = false)
    (h : ofConfig config = .ok e) : e.ShortNames := by
  obtain ⟨interfaces, made, rfl⟩ := ofConfig_eq_ok h
  rw [ShortNames, InterfaceSettings.map_name_of_describes (InterfaceTable.ofSettings_describes made)]
  intro name hn
  obtain ⟨s, hs, rfl⟩ := List.mem_map.1 hn
  exact Nat.lt_succ_of_le (Config.name_fits accepted s hs)

theorem ShortNames.step (h : e.ShortNames) (event : Event) : (e.step event).1.ShortNames := by
  rw [ShortNames, InterfaceTable.names_of_frame (frame_step e event)]
  exact h

/-- The route's record survives the wire. -/
def CanonicalRoute (r : Route) : Prop := (Wire.Record.route r.toWire).Canonical

/-- A route that is registered was read, but for the name of its interface, which is
that of one of the engine's. -/
theorem canonical_of_registered {m : Message} {r : Wire.Route} (short : e.ShortNames)
    (carries : m.Carries .route (some .register) (.route r)) {family : Family} {egress : Interface}
    (hf : r.family = some family) (resolved : e.interfaces.resolve? r.interface = some egress)
    (owner : Option ClientId) : CanonicalRoute (.registered r family egress owner) := by
  obtain ⟨nulFree, hop⟩ := Wire.Route.of_decode carries.route_decoded
  obtain ⟨known, name⟩ := InterfaceTable.resolve?_eq_some_iff.1 resolved
  have stored : egress.name ∈ e.interfaces.interfaces.values.map (·.name) := List.mem_map_of_mem known
  refine ⟨⟨?_, short _ stored⟩, ?_⟩
  · show '\x00' ∉ egress.name.toList
    rw [name]
    exact nulFree
  · show r.nextHop.family = family
    rw [hop, hf, Option.getD_some]

theorem canonicalRoutes_run (history : List Event) (short : e.ShortNames) (h : e.routes.All CanonicalRoute) :
    (e.run history).routes.All CanonicalRoute := by
  induction history generalizing e with
  | nil => exact h
  | cons event history ih =>
    refine ih (short.step event) (step_all h (fun r hr => hr) ?_)
    intro client m now r _ carries family egress hf resolved
    exact canonical_of_registered short carries hf resolved (some client)

/-- Every route that is stored under an accepted configuration has a canonical record. -/
theorem canonical_route {config : Config} {history : List Event} (accepted : config.validate.hasErrors = false)
    (start : ofConfig config = .ok e) {r : Route} (h : r ∈ (e.run history).routes.routes.values) :
    (Wire.Record.route r.toWire).Canonical := by
  have none : e.routes.All CanonicalRoute := by
    obtain ⟨_, -, rfl⟩ := ofConfig_eq_ok start
    exact RouteTable.all_empty
  exact canonicalRoutes_run history (shortNames_ofConfig accepted start) none r h

/-- So has every connection, under any configuration. -/
theorem canonical_connection {config : Config} {history : List Event} (start : ofConfig config = .ok e)
    {f : Family} {entry : Tracked} (h : entry ∈ ((e.run history).connections.get f).connections.values) :
    (Wire.Record.connection entry.connection).Canonical ∧ entry.connection.family = f := by
  obtain ⟨seq, stored⟩ := Sequenced.mem_values_iff.1 h
  obtain ⟨c, registers⟩ := registered_of_stored start stored
  obtain ⟨now, same⟩ := registers.identity stored
  obtain ⟨before, event, after, _, -, accepted, -, -⟩ := registers
  obtain ⟨client, m, -, -, read, -⟩ := accepted?_eq_some accepted
  have carries := Wire.Message.carries_of_connection? read
  obtain ⟨orig, reply⟩ := Wire.Connection.within_of_decode carries.connection_decoded
  have family : entry.connection.family = c.family := congrArg (fun x => x.connection.family) same
  have origs : entry.connection.orig = c.orig := congrArg (fun x => x.connection.orig) same
  have replies : entry.connection.reply = c.reply := congrArg (fun x => x.connection.reply) same
  refine ⟨⟨?_, ?_⟩, family_of_stored start stored⟩
  · rw [origs, family]
    exact orig
  · rw [replies, family]
    exact reply

end Engine

end ControlPlane
