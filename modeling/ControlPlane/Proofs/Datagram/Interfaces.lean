/-
The interfaces of an accepted configuration, as a client sees them.

The name of such an interface fits its field, so a record carries it up to its first NUL
(`Wire.Layout.carried_of_fits`). The validation does not look for a NUL: where a name has one, no route can be
registered through the interface under this name, and listings show less of it (`accepted_usable_iff`).
-/
import ControlPlane.Proofs.Config.Building
import ControlPlane.Proofs.Datagram.Listing
import ControlPlane.Proofs.Engine.Egress

namespace ControlPlane

/-- What is related to some list is, for each that is there, a member. -/
theorem exists_mem_of_forall₂ {α β : Type} {R : α → β → Prop} {as : List α} {bs : List β}
    (h : List.Forall₂ R as bs) {a : α} (ha : a ∈ as) : ∃ b ∈ bs, R a b := by
  induction h with
  | nil => cases ha
  | cons hab _ ih =>
    rcases List.mem_cons.1 ha with rfl | ha
    · exact ⟨_, List.mem_cons_self, hab⟩
    · obtain ⟨b, hb, h⟩ := ih ha
      exact ⟨b, List.mem_cons_of_mem _ hb, h⟩

/-- What holds of the interfaces whatever their flags are is kept with all but the flags. -/
theorem InterfaceTable.forall₂_of_frame {α : Type} {R : α → Interface → Prop} {t t' : InterfaceTable} {as : List α}
    (flags : ∀ a i, R a { i with enabled := false, promiscuous := false } ↔ R a i) (h : t'.frame = t.frame)
    (all : List.Forall₂ R as t.interfaces.values) : List.Forall₂ R as t'.interfaces.values := by
  have framed : ∀ t : InterfaceTable, List.Forall₂ R as t.frame.values ↔ List.Forall₂ R as t.interfaces.values := by
    intro t
    rw [frame, Sequenced.values_map, List.forall₂_map_right_iff]
    exact ⟨(·.imp fun a i => (flags a i).1), (·.imp fun a i => (flags a i).2)⟩
  exact (framed t').1 (h ▸ (framed t).2 all)

namespace Interface

/-- An interface as it is read from its record. -/
def readBack (i : Interface) : Interface := { i with name := Wire.Layout.carried i.name }

theorem id_readBack (i : Interface) : i.readBack.id = i.id := by rw [readBack]

theorem mac_readBack (i : Interface) : i.readBack.mac = i.mac := by rw [readBack]

theorem name_readBack (i : Interface) : i.readBack.name = Wire.Layout.carried i.name := by rw [readBack]

end Interface

namespace Engine

open Interface (readBack)
open Wire (untilNul)

variable {config : Config} {start : Engine} {history : List Event}

/-- Whatever happens, the interfaces are those of the configuration, in their order. -/
theorem identified_run (made : ofConfig config = .ok start) (history : List Event) :
    List.Forall₂ (fun x i => x.1.Identifies x.2 i ∧ i.name = x.1.name) config.interfaces.zipIdx
      (start.run history).interfaces.interfaces.values := by
  obtain ⟨interfaces, taken, new⟩ := ofConfig_eq_ok made
  have there : start.interfaces = interfaces := by rw [new]
  refine InterfaceTable.forall₂_of_frame (fun x i => ?_) (frame_run start history) ?_
  · exact and_congr ⟨(·.congr rfl rfl), (·.congr rfl rfl)⟩ Iff.rfl
  · rw [there]
    exact (InterfaceTable.ofSettings_describes taken).imp fun _ _ d => ⟨d.toIdentifies, d.name⟩

/-- A name that was accepted is carried up to its first NUL. -/
theorem carried_of_accepted (accepted : config.validate.hasErrors = false) {s : InterfaceSettings}
    (hs : s ∈ config.interfaces) : Wire.Layout.carried s.name = untilNul s.name :=
  Wire.Layout.carried_of_fits (Nat.lt_succ_of_le (Config.name_fits accepted s hs))

/-- A route that names an interface of the configuration is bound to it, unless the name has a NUL. -/
theorem registration_bound_iff (accepted : config.validate.hasErrors = false) (started : ofConfig config = .ok start)
    (running : (start.run history).running = true) {x : InterfaceSettings × Nat} (hx : x ∈ config.interfaces.zipIdx)
    {r : Wire.Route} (name : r.interface = x.1.name) (family : ∃ f, r.family = some f)
    (free : (start.run history).routes.get? r.id = none) (client : ClientId) (now : Nat) :
    let o := (start.run history).dispatch client r.registration now
    (o.reply.status = .ok ∧ ∃ route, o.engine.routes.get? r.id = some route ∧ route.egress = x.1.name ∧
        route.egressId = x.1.effectiveId x.2) ↔
      '\x00' ∉ x.1.name.toList := by
  obtain ⟨i, known, ids, named⟩ := exists_mem_of_forall₂ (identified_run started history) hx
  obtain ⟨admitted, stores⟩ := dispatch_registration ⟨config, start, history, started, rfl⟩ r client now
  rw [name, carried_of_accepted accepted (List.fst_mem_of_mem_zipIdx hx)] at admitted stores
  rw [← Wire.untilNul_eq_self_iff]
  constructor
  · rintro ⟨ok, route, stored, egress, -⟩
    obtain ⟨f, j, hop, -, resolved, there⟩ := stores ok
    cases stored.symm.trans there
    rw [← (InterfaceTable.resolve?_eq_some_iff.1 resolved).2]
    exact egress
  · intro whole
    rw [whole] at admitted stores
    have resolved : (start.run history).interfaces.resolve? x.1.name = some i :=
      InterfaceTable.resolve?_eq_some_iff.2 ⟨known, named⟩
    have ok := admitted.2 ⟨running, free, family, i, resolved⟩
    obtain ⟨f, j, hop, -, resolved', there⟩ := stores ok
    cases resolved.symm.trans resolved'
    exact ⟨ok, _, there, named, ids.id⟩

/-- What is read of the interfaces: all that identifies them, and their names up to the first NUL. -/
theorem readBack_run (accepted : config.validate.hasErrors = false) (started : ofConfig config = .ok start)
    (history : List Event) :
    List.Forall₂ (fun x i => x.1.Identifies x.2 i ∧ i.name = untilNul x.1.name ∧
        (i.name = x.1.name ↔ '\x00' ∉ x.1.name.toList)) config.interfaces.zipIdx
      ((start.run history).interfaces.interfaces.values.map readBack) := by
  have known : List.Forall₂ (fun (x : InterfaceSettings × Nat) (i : Interface) => x.1 ∈ config.interfaces ∧
      x.1.Identifies x.2 i ∧ i.name = x.1.name) config.interfaces.zipIdx
      (start.run history).interfaces.interfaces.values :=
    (List.forall₂_and_left _ _).2 ⟨fun x hx => List.fst_mem_of_mem_zipIdx hx, identified_run started history⟩
  rw [List.forall₂_map_right_iff]
  refine known.imp fun x i ⟨hx, ids, named⟩ => ⟨ids.congr i.id_readBack i.mac_readBack, ?_⟩
  rw [Interface.name_readBack, named, carried_of_accepted accepted hx]
  exact ⟨rfl, Wire.untilNul_eq_self_iff⟩

end Engine

namespace Client

open Interface (readBack)
open Wire (Message untilNul)

/-- A client that lists the interfaces comes to what is read from their records. -/
theorem queryInterfaces_of_table {e : Engine} (running : e.running = true) (client : ClientId) (clock : Nat → Nat)
    {c : Client (Engine × Nat)} (world : c.world.1 = e) (inbox : c.inbox = []) {limit : Nat}
    (enough : e.interfaces.size < limit) :
    ∃ metrics, queryInterfaces (answering client clock) limit c =
      .ok (some (e.interfaces.interfaces.values.map readBack))
        { c with
          world := (e.listing .interfaces .idle metrics, c.world.2 + (e.interfaces.size + 1))
          sent := c.sent ++ Resource.interfaces.requests e.interfaces.size } :=
  list_of_table client clock .interfaces Wire.Record.interface readBack Interface.decode running (fun _ => rfl)
    (fun i _ action => Wire.decode_written_interface i action) world inbox enough

/-- **An accepted interface can be used as long as its name has no NUL.** Under a configuration that was accepted
and whatever happened to the engine, as long as it runs: a route of a free id and with a family that names an
interface of the configuration is answered with `Status.ok` and stored through this very interface just when
the name has no NUL. A client that lists the interfaces comes to those of the configuration, in their order,
with their ids and hardware addresses, and with their names up to the first NUL: in full just when they have
none. -/
theorem accepted_usable_iff {config : Config} {start : Engine} {history : List Engine.Event}
    (accepted : config.validate.hasErrors = false) (started : Engine.ofConfig config = .ok start)
    (running : (start.run history).running = true) :
    let e := start.run history
    (∀ x ∈ config.interfaces.zipIdx, ∀ (r : Wire.Route) client now, r.interface = x.1.name →
      (∃ f, r.family = some f) → e.routes.get? r.id = none →
        ∃ m, Wire.Record.encode Command.route.code .register (.route r) = .ok m ∧ Message.decode m.encode = .ok m ∧
          let o := e.dispatch client m now
          ((o.reply.status = .ok ∧ ∃ route, o.engine.routes.get? r.id = some route ∧ route.egress = x.1.name ∧
              route.egressId = x.1.effectiveId x.2) ↔
            '\x00' ∉ x.1.name.toList)) ∧
      ∀ cursors client clock (c : Client (Engine × Nat)) limit, c.world.1 = { e with cursors } → c.inbox = [] →
        config.interfaces.length < limit →
          ∃ metrics listed, queryInterfaces (answering client clock) limit c =
              .ok (some listed)
                { c with
                  world := ({ e with cursors := { cursors with interfaces := .idle }, metrics },
                    c.world.2 + (config.interfaces.length + 1))
                  sent := c.sent ++ Resource.interfaces.requests config.interfaces.length } ∧
            List.Forall₂ (fun x i => x.1.Identifies x.2 i ∧ i.name = untilNul x.1.name ∧
              (i.name = x.1.name ↔ '\x00' ∉ x.1.name.toList)) config.interfaces.zipIdx listed := by
  intro e
  constructor
  · intro x hx r client now name family free
    obtain ⟨written, arrives⟩ := r.encode_registration
    exact ⟨_, written, arrives, Engine.registration_bound_iff accepted started running hx name family free client now⟩
  · intro cursors client clock c limit world inbox enough
    have size : e.interfaces.size = config.interfaces.length := by
      have length := (Engine.identified_run started history).length_eq
      rw [List.length_zipIdx] at length
      exact (length.trans (List.length_map ..)).symm
    let e' : Engine := { e with cursors }
    have running' : e'.running = true := running
    obtain ⟨metrics, listed⟩ := queryInterfaces_of_table running' client clock world inbox (size ▸ enough)
    refine ⟨metrics, _, ?_, Engine.readBack_run accepted started history⟩
    rw [listed]
    simp only [Engine.listing, Engine.withCursor, e', size]
    rfl

end Client

namespace Engine.Small

/-- Two interfaces, one with a NUL in its name. -/
def nulNamed : Config := { Config.standard with interfaces := [.named "eth\x000", .named "eth1"] }

def nulStart : Engine := (ofConfig nulNamed).toOption.get rfl

/-- A route through an interface of some name. -/
def through (name : String) : Wire.Route := { route 7 with interface := name }

end Engine.Small

open Engine in
/-- The interface without a NUL is registered through and listed as it is, the other one is listed under its
first three letters. -/
theorem Client.accepted_usable_iff_small :
    let c : Client (Engine × Nat) :=
      { world := (Small.nulStart, 0), inbox := [], sent := [], timeout := standardTimeout, backChannel := none }
    Small.nulNamed.validate.hasErrors = false ∧ Small.nulStart.running = true ∧
      (∃ m, Wire.Record.encode Command.route.code .register (.route (Small.through "eth1")) = .ok m ∧
        (Small.nulStart.dispatch Small.client m 0).reply.status = .ok ∧
        ∃ route, (Small.nulStart.dispatch Small.client m 0).engine.routes.get? 7 = some route ∧
          route.egress = "eth1" ∧ route.egressId = 1) ∧
      ∃ c' i j, queryInterfaces (answering Small.client fun n => n) 3 c = .ok (some [i, j]) c' ∧
        i.id = 0 ∧ i.name = "eth" ∧ j.id = 1 ∧ j.name = "eth1" := by
  intro c
  have accepted : Small.nulNamed.validate.hasErrors = false := by decide +kernel
  have running : Small.nulStart.running = true := rfl
  have started : ofConfig Small.nulNamed = .ok Small.nulStart := rfl
  have world : c.world.1 = { Small.nulStart with cursors := Small.nulStart.cursors } := rfl
  obtain ⟨registers, lists⟩ := @accepted_usable_iff _ _ [] accepted started running
  refine ⟨accepted, running, ?_, ?_⟩
  · obtain ⟨m, written, -, usable⟩ :=
      registers (.named "eth1", 1) (by decide) (Small.through "eth1") Small.client 0 rfl ⟨.v4, rfl⟩ rfl
    exact ⟨m, written, usable.2 (by decide)⟩
  · obtain ⟨metrics, listed, answered, as⟩ := lists _ Small.client (fun n => n) c 3 world rfl (by decide)
    obtain ⟨i, _, ⟨first, name, -⟩, rest, rfl⟩ := List.forall₂_cons_left_iff.1 as
    obtain ⟨j, _, ⟨second, name', -⟩, none, rfl⟩ := List.forall₂_cons_left_iff.1 rest
    cases none
    exact ⟨_, i, j, answered, first.id, name.trans (by decide +kernel), second.id, name'.trans (by decide +kernel)⟩

open Engine in
/-- An accepted interface that no route can be registered through by its name, and that is listed under
another one. -/
theorem Engine.accepted_name_refused :
    Small.nulNamed.validate.hasErrors = false ∧ ofConfig Small.nulNamed = .ok Small.nulStart ∧
      ∃ i ∈ Small.nulStart.interfaces.interfaces.values, i.name = "eth\x000" ∧
        (∃ m, Wire.Record.encode Command.route.code .register (.route (Small.through i.name)) = .ok m ∧
          (Small.nulStart.dispatch Small.client m 0).reply.status = .wrongParam) ∧
        (Interface.decode (i.encode .query)).toOption.map (·.name) = some "eth" := by
  refine ⟨by decide +kernel, rfl, Small.nulStart.interfaces.interfaces.values.head (by decide), List.head_mem _,
    by decide +kernel, ⟨_, (Small.through _).encode_registration.1, by decide +kernel⟩, by decide +kernel⟩

end ControlPlane
