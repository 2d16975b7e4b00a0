/-
The interface that a route is bound to.

A client writes a record with the name of an interface; the engine reads what the field of the name carries
and looks for an interface of that name. One lemma says when such a registration is admitted and what is
stored then (`dispatch_registration`). So a route goes through the interface whose name the field carries,
which is not for every text the interface of the text (`egress_carried`).
-/
import ControlPlane.Proofs.Engine.Event
import ControlPlane.Proofs.Engine.Integrity
import ControlPlane.Proofs.Wire.RoundTrip

namespace ControlPlane

namespace Wire

/-- The message that registers a route. -/
def Route.registration (r : Route) : Message :=
  { kind := .command, code := Command.route.code, payload := (Record.route r).payload .register }

/-- The route is written as this message, which survives a datagram. -/
theorem Route.encode_registration (r : Route) :
    Record.encode Command.route.code .register (.route r) = .ok r.registration ∧
      Message.decode r.registration.encode = .ok r.registration :=
  ⟨Record.encode_eq .., Message.decode_encode (Record.length_payload_le .register (.route r))⟩

/-- The message carries the route, with the name that the field carries and some next hop. -/
theorem Route.carries_registration (r : Route) :
    ∃ hop, r.registration.Carries .route (some .register)
      (.route { r with interface := Layout.carried r.interface, nextHop := hop }) := by
  obtain ⟨hop, read, -⟩ := decode_written r .register
  refine ⟨hop, rfl, rfl, ?_⟩
  exact Record.decode_of_read (r := .route r) rfl (congrArg (Except.map Record.route) read)

end Wire

namespace Engine

open Wire (Message)
open Wire.Layout (carried)

variable {e : Engine}

/-- A route is taken when its id is free, it has a family, and its interface is known. -/
theorem addRoute_ok_iff {r : Wire.Route} {owner : Option ClientId} :
    (∃ e', e.addRoute r owner = .ok e') ↔
      e.routes.contains r.id = false ∧ (∃ f, r.family = some f) ∧ ∃ i, e.interfaces.resolve? r.interface = some i := by
  constructor
  · rintro ⟨e', taken⟩
    obtain ⟨f, i, t, hf, hi, ht, -⟩ := addRoute_eq_ok taken
    exact ⟨RouteTable.contains_eq_false_iff.2 (RouteTable.add_eq_ok_iff.1 ht).1, ⟨f, hf⟩, i, hi⟩
  · rintro ⟨free, ⟨f, hf⟩, i, hi⟩
    simp only [addRoute, free, hf, hi, Bool.false_eq_true, if_false]
    exact ⟨_, map_eq_ok_iff.2 ⟨_, RouteTable.add_eq_ok_iff.2 ⟨RouteTable.contains_eq_false_iff.1 free, rfl⟩, rfl⟩⟩

/-- **What a registration comes to.** It is admitted when the engine runs, the id is free, the route has a
family, and some interface has the name that the field carries; and then the route is stored under its id, through
that interface. -/
theorem dispatch_registration (h : e.Reachable) (r : Wire.Route) (client : ClientId) (now : Nat) :
    let o := e.dispatch client r.registration now
    (o.reply.status = .ok ↔ e.running = true ∧ e.routes.get? r.id = none ∧ (∃ f, r.family = some f) ∧
        ∃ i, e.interfaces.resolve? (carried r.interface) = some i) ∧
      (o.reply.status = .ok → ∃ f egress hop, r.family = some f ∧
        e.interfaces.resolve? (carried r.interface) = some egress ∧
        o.engine.routes.get? r.id = some (.registered { r with nextHop := hop } f egress (some client))) := by
  intro o
  obtain ⟨hop, carries⟩ := r.carries_registration
  generalize read : ({ r with interface := carried r.interface, nextHop := hop } : Wire.Route) = r' at carries
  have id : r'.id = r.id := by rw [← read]
  have family : r'.family = r.family := by rw [← read]
  have name : r'.interface = carried r.interface := by rw [← read]
  have free : e.routes.contains r'.id = false ↔ e.routes.get? r.id = none := by
    rw [id, h.sound.ids.contains_eq, Option.isSome_eq_false_iff, Option.isNone_iff_eq_none]
  have taken := @addRoute_ok_iff e r' (some client)
  rw [free, family, name] at taken
  constructor
  · constructor
    · intro ok
      have running := running_of_ok ok
      simp only [o, dispatch_of_carries running carries] at ok
      obtain ⟨e', added, -⟩ := settled_status_ok (addRoute_ne_ok e r' client) ok
      exact ⟨running, taken.1 ⟨e', added⟩⟩
    · rintro ⟨running, admitted⟩
      obtain ⟨e', added⟩ := taken.2 admitted
      simp only [o, dispatch_of_carries running carries, perform, handleRoute, added]
      rfl
  · intro ok
    have running := running_of_ok ok
    simp only [o, dispatch_of_carries running carries] at ok ⊢
    obtain ⟨e', added, settled⟩ := settled_status_ok (addRoute_ne_ok e r' client) ok
    obtain ⟨f, egress, t, hf, hi, ht, rfl⟩ := addRoute_eq_ok added
    refine ⟨f, egress, hop, family ▸ hf, name ▸ hi, ?_⟩
    simp only [perform, handleRoute, settled]
    rw [h.sound.ids.get?_add ht, if_pos id, ← read]
    rfl

/-- **A route is bound to the interface whose name is carried.** A registration that is written and answered
with `Status.ok` stores a route through an interface of the engine. Its name is what the field carries of the
text that the client gave: so it is the text itself just when that has no NUL and takes fifteen octets at most,
or loses no more than an end of its last character which is the replacement anyway. -/
theorem egress_carried (h : e.Reachable) (r : Wire.Route) (client : ClientId) (now : Nat) :
    ∃ m, Wire.Record.encode Command.route.code .register (.route r) = .ok m ∧ Message.decode m.encode = .ok m ∧
      let o := e.dispatch client m now
      o.reply.status = .ok → ∃ route egress, o.engine.routes.get? r.id = some route ∧
        egress ∈ e.interfaces.interfaces.values ∧ route.egressId = egress.id ∧ route.egress = egress.name ∧
        route.egress = carried r.interface ∧
        (route.egress = r.interface ↔ '\x00' ∉ r.interface.toList ∧
          (r.interface.utf8ByteSize ≤ 15 ∨
            r.interface.utf8ByteSize ≤ 17 ∧ r.interface.toList.getLast? = some '\uFFFD')) := by
  obtain ⟨written, arrives⟩ := r.encode_registration
  refine ⟨_, written, arrives, fun ok => ?_⟩
  obtain ⟨f, egress, hop, -, resolved, stored⟩ := (dispatch_registration h r client now).2 ok
  obtain ⟨known, name⟩ := InterfaceTable.resolve?_eq_some_iff.1 resolved
  refine ⟨_, egress, stored, known, rfl, rfl, name, ?_⟩
  show egress.name = r.interface ↔ _
  rw [name, Wire.Layout.carried_eq_self_iff]
  exact and_congr_right fun _ => or_congr Nat.lt_succ_iff (and_congr_left fun _ => Nat.lt_succ_iff)

namespace Small

/-- One interface, whose name fills its field. -/
def filled : Config := { Config.standard with interfaces := [.named "abcdefghijklmno"] }

def filledStart : Engine := (ofConfig filled).toOption.get rfl

/-- A route whose interface has one letter more. -/
def overlong : Wire.Route := { route 7 with interface := "abcdefghijklmnop" }

end Small

theorem egress_carried_small :
    Small.start.Reachable ∧
      ∃ m, Wire.Record.encode Command.route.code .register (.route (Small.route 7)) = .ok m ∧
        (Small.start.dispatch Small.client m 0).reply.status = .ok ∧
        ∃ route, (Small.start.dispatch Small.client m 0).engine.routes.get? 7 = some route ∧
          route.egress = "eth0" := by
  have reachable : Small.start.Reachable := ⟨Small.config, Small.start, [], rfl, rfl⟩
  obtain ⟨m, written, -, bound⟩ := egress_carried reachable (Small.route 7) Small.client 0
  have ok : (Small.start.dispatch Small.client m 0).reply.status = .ok := by
    cases written
    decide +kernel
  obtain ⟨route, -, stored, -, -, -, -, same⟩ := bound ok
  exact ⟨reachable, m, written, ok, route, stored, same.2 ⟨by decide, .inl (by decide)⟩⟩

/-- A text of sixteen octets is no name of an interface, and yet a route is registered through the interface
that has the first fifteen of them for its name. -/
theorem overlong_name_admitted :
    Small.filledStart.Reachable ∧
      ∃ m, Wire.Record.encode Command.route.code .register (.route Small.overlong) = .ok m ∧
        (Small.filledStart.dispatch Small.client m 0).reply.status = .ok ∧
        ∃ route, (Small.filledStart.dispatch Small.client m 0).engine.routes.get? 7 = some route ∧
          route.egress = "abcdefghijklmno" ∧ route.egress ≠ Small.overlong.interface := by
  refine ⟨⟨Small.filled, Small.filledStart, [], rfl, rfl⟩, Small.overlong.registration,
    Small.overlong.encode_registration.1, by decide +kernel, ?_⟩
  obtain ⟨route, stored⟩ : ∃ route,
      (Small.filledStart.dispatch Small.client Small.overlong.registration 0).engine.routes.get? 7 = some route :=
    Option.isSome_iff_exists.1 (by decide +kernel)
  have name : ((Small.filledStart.dispatch Small.client Small.overlong.registration 0).engine.routes.get? 7).map
      (·.egress) = some "abcdefghijklmno" := by decide +kernel
  rw [stored, Option.map_some, Option.some.injEq] at name
  exact ⟨route, stored, name, by rw [name]; decide⟩

end Engine

end ControlPlane
