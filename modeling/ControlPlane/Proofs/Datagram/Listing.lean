/-
A client's listing against the table that it lists.

The entries that a listing has still to give are a list of their own
(`Cursor.ahead`): a question gets its first, and leaves its rest ahead. So the
client's loop is an induction on that list (`list_of_ahead`), each round of which is
one request, answered with the record of one entry, and the last of which finds none.
-/
import ControlPlane.Datagram.Client
import ControlPlane.Proofs.Engine.Canonical

namespace ControlPlane

namespace Cursor

variable {α : Type}

/-- The entries that are still to be given: all of them at the start, then those
behind the cursor. -/
def ahead (c : Cursor) (start : Bool) (table : SortedMap Nat α) : List (Nat × α) :=
  if start then table.entries
  else
    match c with
    | idle => []
    | behind last => table.entries.filter fun e => last < e.1

theorem ahead?_eq_head? (c : Cursor) (start : Bool) (table : SortedMap Nat α) :
    c.ahead? start table = (c.ahead start table).head? := by
  cases start with
  | true => rfl
  | false =>
    cases c with
    | idle => rfl
    | behind last => exact (List.head?_filter ..).symm

/-- Behind the first of ascending entries are the others. -/
theorem filter_behind_head {d : Nat × α} {rest : List (Nat × α)}
    (ascending : (d :: rest).Pairwise fun a b => a.1 < b.1) :
    (d :: rest).filter (fun e => d.1 < e.1) = rest := by
  obtain ⟨behind, -⟩ := List.pairwise_cons.1 ascending
  rw [List.filter_cons, if_neg (by simp), List.filter_eq_self]
  intro e he
  exact decide_eq_true (behind e he)

/-- After an entry was given, the others are ahead. -/
theorem ahead_of_given {c : Cursor} {start : Bool} {table : SortedMap Nat α} {d : Nat × α}
    {rest : List (Nat × α)} (h : c.ahead start table = d :: rest) :
    (behind d.1).ahead false table = rest := by
  have asc := table.ascending
  show table.entries.filter (fun e => d.1 < e.1) = rest
  cases start with
  | true =>
    have all : table.entries = d :: rest := h
    rw [all] at asc ⊢
    exact filter_behind_head asc
  | false =>
    cases c with
    | idle => cases h
    | behind last =>
      have here : table.entries.filter (fun e => last < e.1) = d :: rest := h
      have passed : last < d.1 := by
        have mem : d ∈ table.entries.filter fun e => last < e.1 := here ▸ List.mem_cons_self
        simpa using (List.mem_filter.1 mem).2
      have both : table.entries.filter (fun e => d.1 < e.1) =
          (table.entries.filter fun e => last < e.1).filter fun e => d.1 < e.1 := by
        rw [List.filter_filter]
        refine List.filter_congr fun e _ => ?_
        by_cases hd : d.1 < e.1
        · simp [hd, Nat.lt_trans passed hd]
        · simp [hd]
      rw [both, here]
      exact filter_behind_head (here ▸ asc.filter _)

end Cursor

/-! ## One request -/

namespace Resource

/-- The record that a client asks with: its contents do not matter. -/
def template : Resource → Wire.Record
  | routes => .route (.ofId 0)
  | connections f => .connection (.blank f)
  | interfaces => .interface .blank

/-- What a client sends for one entry. -/
def request (r : Resource) (action : Action) : Wire.Message :=
  { kind := .command, code := r.command.code, payload := r.template.payload action }

/-- What a client sends for a number of entries, and the request that finds no more. -/
def requests (r : Resource) (entries : Nat) : List Bytes :=
  (r.request .query).encode :: List.replicate entries (r.request .queryCont).encode

@[simp] theorem length_requests (r : Resource) (entries : Nat) : (r.requests entries).length = entries + 1 := by
  rw [requests, List.length_cons, List.length_replicate]

theorem carries_request (r : Resource) (action : Action) :
    (r.request action).Carries r.command (some action) r.template := by
  refine ⟨rfl, rfl, ?_⟩
  cases r with
  | routes => exact Wire.Record.decode_of_belongs rfl ⟨Wire.named_empty, rfl⟩
  | connections f =>
    cases f
    · exact Wire.Record.decode_of_belongs (.inl rfl) ⟨⟨rfl, rfl⟩, ⟨rfl, rfl⟩⟩
    · exact Wire.Record.decode_of_belongs (.inl rfl) ⟨⟨rfl, rfl⟩, ⟨rfl, rfl⟩⟩
  | interfaces => exact Wire.Record.decode_of_belongs (r := .interface .blank) rfl Wire.named_empty

theorem asks_request (r : Resource) {action : Action} (lists : action.lists = true) :
    (r.request action).asks? = some (r, action) := by
  rw [(r.carries_request action).asks?_eq, Resource.ofCommand?_eq_some_iff.2 rfl]
  simp [Option.filter, lists]

end Resource

namespace Engine

/-- The engine with one listing standing somewhere, and something counted: as far as
a listing brings it. -/
def listing (e : Engine) (r : Resource) (cursor : Cursor) (metrics : Metrics) : Engine :=
  { e.withCursor r cursor with metrics }

variable {e : Engine} {r : Resource} {action : Action}

theorem running_listing (e : Engine) (r : Resource) (c : Cursor) (m : Metrics) :
    (e.listing r c m).running = e.running := by
  cases r <;> rfl

theorem cursor_listing (e : Engine) (r : Resource) (c : Cursor) (m : Metrics) :
    (e.listing r c m).cursor r = c := by
  cases r <;> simp [listing, withCursor, cursor]

theorem records_listing (e : Engine) (r : Resource) (c : Cursor) (m : Metrics) (action : Action) :
    (e.listing r c m).records r action = e.records r action := by
  cases r <;> rfl

theorem listing_listing (e : Engine) (r : Resource) (c c' : Cursor) (m m' : Metrics) :
    { (e.listing r c m).withCursor r c' with metrics := m' } = e.listing r c' m' := by
  cases r <;> simp [listing, withCursor]

theorem listing_self (e : Engine) (r : Resource) : e.listing r (e.cursor r) e.metrics = e := by
  cases r <;> simp [listing, withCursor, cursor]

variable {α : Type} {t : Sequenced α} {encode : α → Bytes} {cursor : Cursor} {metrics : Metrics}

/-- What a question finds is the first entry ahead. -/
theorem ahead?_listing (cursor : Cursor) (metrics : Metrics) (table : e.records r action = t.map encode) :
    ((e.listing r cursor metrics).cursor r).ahead? (action == .query)
        ((e.listing r cursor metrics).records r action).table =
      (cursor.ahead (action == .query) t.table).head?.map fun d => (d.1, encode d.2) := by
  rw [records_listing, cursor_listing, table, Sequenced.table_map, Cursor.ahead?_map, Cursor.ahead?_eq_head?]

/-- The first entry ahead is the answer. -/
theorem list_of_ahead_cons {d : Nat × α} {rest : List (Nat × α)} (table : e.records r action = t.map encode)
    (ahead : cursor.ahead (action == .query) t.table = d :: rest) :
    (e.listing r cursor metrics).list r action =
      ⟨(e.listing r cursor metrics).withCursor r (.behind d.1), ⟨.ok, encode d.2⟩, []⟩ := by
  have found := ahead?_listing cursor metrics table
  rw [ahead] at found
  simp only [list, found, List.head?_cons, Option.map_some]

/-- With none ahead the listing comes to rest. -/
theorem list_of_ahead_nil (table : e.records r action = t.map encode)
    (ahead : cursor.ahead (action == .query) t.table = []) :
    (e.listing r cursor metrics).list r action =
      ⟨(e.listing r cursor metrics).withCursor r .idle, .ofStatus .entryNotFound, []⟩ := by
  have found := ahead?_listing cursor metrics table
  rw [ahead] at found
  simp only [list, found, List.head?_nil, Option.map_none]
  rfl

end Engine

namespace Client

open Wire (Message Reply)

/-- An engine that answers what one client sends, at the instants of a clock; the
number of requests so far goes with it. -/
def answering (client : ClientId) (clock : Nat → Nat) : Peer (Engine × Nat)
  | (e, n), datagram =>
    match e.receive client datagram (clock n) with
    | (e', .ok (reply, _)) => ((e', n + 1), .ok [.ok reply.encode])
    | (e', .error _) => ((e', n + 1), .ok [])

/-- A reply is read as it was sent. -/
theorem decode_toMessage {reply : Reply} (room : reply.record.length + 2 ≤ maxPayload) (code : UInt16) :
    Message.decode ((reply.toMessage code).encode.take Wire.maxDatagram) = .ok (reply.toMessage code) := by
  rw [Message.decode_take]
  exact Reply.decode_toMessage room code

/-- A reply that arrives alone is taken. -/
theorem awaitReply_toMessage {reply : Reply} (room : reply.record.length + 2 ≤ maxPayload) (code : UInt16)
    (timeout : Nat) : awaitReply code timeout [.ok (reply.toMessage code).encode] = (.ok reply, []) := by
  rw [← Reply.ofMessage_toMessage reply code]
  exact awaitReply_of_eq (decode_toMessage room code)

variable {r : Resource} {action : Action}

/-- One round: the engine does a step of the listing, and the client has its answer. -/
theorem command_of_lists (client : ClientId) (clock : Nat → Nat) {e : Engine} {cursor cursor' : Cursor}
    {metrics : Metrics} {reply : Reply} {c : Client (Engine × Nat)} (running : e.running = true)
    (world : c.world.1 = e.listing r cursor metrics) (inbox : c.inbox = []) (lists : action.lists = true)
    (answer : (e.listing r cursor metrics).list r action =
      ⟨(e.listing r cursor metrics).withCursor r cursor', reply, []⟩)
    (room : reply.record.length + 2 ≤ maxPayload) :
    ∃ metrics, command (answering client clock) r.command.code action r.template c =
      .ok reply
        { c with
          world := (e.listing r cursor' metrics, c.world.2 + 1)
          sent := c.sent ++ [(r.request action).encode] } := by
  have written : Wire.Record.encode r.command.code action r.template = .ok (r.request action) :=
    Wire.Record.encode_eq _ _ _
  have read : Message.decode (r.request action).encode = .ok (r.request action) :=
    Message.decode_encode (Wire.Record.length_payload_le action r.template)
  have running' : c.world.1.running = true := by
    rw [world, Engine.running_listing]
    exact running
  have answered : c.world.1.dispatch client (r.request action) (clock c.world.2) = _ :=
    Engine.dispatch_of_asks running' (r.asks_request lists)
  rw [world, answer] at answered
  obtain ⟨metrics', arrived⟩ : ∃ metrics', answering client clock c.world (r.request action).encode =
      (({ (e.listing r cursor metrics).withCursor r cursor' with metrics := metrics' }, c.world.2 + 1),
        .ok [.ok (reply.toMessage (r.request action).code).encode]) := by
    simp only [answering, Engine.receive, read, world, answered]
    exact ⟨_, rfl⟩
  rw [Engine.listing_listing] at arrived
  refine ⟨metrics', ?_⟩
  simp only [command, written, bind, EStateM.bind, settle, send, arrived, inbox, List.nil_append,
    awaitReply_toMessage room]

/-! ## The loop -/

section

variable {α β : Type} {peer : Peer (Engine × Nat)} {code : UInt16} {template : Wire.Record}
  {decode : Bytes → Except Error α} {limit : Nat} {reply : Reply} {c c' c'' : Client (Engine × Nat)}

/-- An entry that is answered is read, and goes before those that are still to come. -/
theorem list_of_ok {a : α} {rest : List α} (asked : command peer code action template c = .ok reply c')
    (ok : reply.status = .ok) (read : decode reply.record = .ok a)
    (others : list peer code template decode limit .queryCont c' = .ok (some rest) c'') :
    list peer code template decode (limit + 1) action c = .ok (some (a :: rest)) c'' := by
  simp only [list, bind, EStateM.bind, asked, ok, read, settle, others, pure, EStateM.pure, Option.map_some]

/-- With no entry left the listing is over. -/
theorem list_of_entryNotFound (asked : command peer code action template c = .ok reply c')
    (ended : reply.status = .entryNotFound) :
    list peer code template decode (limit + 1) action c = .ok (some []) c' := by
  simp only [list, bind, EStateM.bind, asked, ended, pure, EStateM.pure]

end

section

variable {α β : Type} {e : Engine} {t : Sequenced α}

/-- The client's loop is given what is ahead, one entry for one request, and asks once
more. -/
theorem list_of_ahead (client : ClientId) (clock : Nat → Nat) (form : α → Wire.Record) (out : α → β)
    (decode : Bytes → Except Error β) (running : e.running = true)
    (table : ∀ action, e.records r action = t.map fun a => (form a).payload action)
    {rest : List (Nat × α)} (read : ∀ d ∈ rest, ∀ action, decode ((form d.2).payload action) = .ok (out d.2))
    {c : Client (Engine × Nat)} {cursor : Cursor} {metrics : Metrics} {limit : Nat}
    (world : c.world.1 = e.listing r cursor metrics) (inbox : c.inbox = []) (lists : action.lists = true)
    (ahead : cursor.ahead (action == .query) t.table = rest) (enough : rest.length < limit) :
    ∃ metrics, list (answering client clock) r.command.code r.template decode limit action c =
      .ok (some (rest.map fun d => out d.2))
        { c with
          world := (e.listing r .idle metrics, c.world.2 + (rest.length + 1))
          sent := c.sent ++ (r.request action).encode ::
            List.replicate rest.length (r.request .queryCont).encode } := by
  induction rest generalizing c cursor metrics action limit with
  | nil =>
    obtain ⟨limit, rfl⟩ : ∃ n, limit = n + 1 := Nat.exists_eq_add_one.2 enough
    obtain ⟨metrics', asked⟩ := command_of_lists client clock running world inbox lists
      (Engine.list_of_ahead_nil (table action) ahead) (by decide)
    exact ⟨metrics', list_of_entryNotFound asked rfl⟩
  | cons d rest ih =>
    obtain ⟨limit, rfl⟩ : ∃ n, limit = n + 1 := Nat.exists_eq_add_one.2 (Nat.zero_lt_of_lt enough)
    have room : ((form d.2).payload action).length + 2 ≤ maxPayload := by
      rw [Wire.Record.length_payload]
      exact Wire.Record.size_add_two_le _
    obtain ⟨metrics', asked⟩ := command_of_lists client clock running world inbox lists
      (Engine.list_of_ahead_cons (table action) ahead) room
    have next : (Cursor.behind d.1).ahead (Action.queryCont == .query) t.table = rest :=
      Cursor.ahead_of_given ahead
    let c' : Client (Engine × Nat) :=
      { c with
        world := (e.listing r (.behind d.1) metrics', c.world.2 + 1)
        sent := c.sent ++ [(r.request action).encode] }
    have world' : c'.world.1 = e.listing r (.behind d.1) metrics' := rfl
    obtain ⟨metrics'', others⟩ := ih (fun d hd => read d (List.mem_cons_of_mem _ hd)) world' inbox rfl next
      (Nat.lt_of_succ_lt_succ enough)
    refine ⟨metrics'', ?_⟩
    have count : c'.world.2 + (rest.length + 1) = c.world.2 + ((d :: rest).length + 1) := by
      show c.world.2 + 1 + (rest.length + 1) = c.world.2 + (rest.length + 1 + 1)
      omega
    have sent : ∀ requests, c'.sent ++ requests = c.sent ++ (r.request action).encode :: requests :=
      fun requests => List.append_assoc ..
    rw [list_of_ok asked rfl (read d List.mem_cons_self action) others, count, sent]
    rfl

/-- The client's loop from the start of a listing, wherever that stood before. -/
theorem list_of_table (client : ClientId) (clock : Nat → Nat) (r : Resource) (form : α → Wire.Record)
    (out : α → β) (decode : Bytes → Except Error β) (running : e.running = true)
    (table : ∀ action, e.records r action = t.map fun a => (form a).payload action)
    (read : ∀ a ∈ t.values, ∀ action, decode ((form a).payload action) = .ok (out a))
    {c : Client (Engine × Nat)} (world : c.world.1 = e) (inbox : c.inbox = []) {limit : Nat}
    (enough : t.size < limit) :
    ∃ metrics, list (answering client clock) r.command.code r.template decode limit .query c =
      .ok (some (t.values.map out))
        { c with
          world := (e.listing r .idle metrics, c.world.2 + (t.size + 1))
          sent := c.sent ++ r.requests t.size } := by
  have there : c.world.1 = e.listing r (e.cursor r) e.metrics := by rw [world, Engine.listing_self]
  have whole : (e.cursor r).ahead (Action.query == .query) t.table = t.entries := rfl
  obtain ⟨metrics, listed⟩ := list_of_ahead client clock form out decode running table
    (fun d hd => read d.2 (List.mem_map_of_mem hd)) there inbox rfl whole enough
  have values : t.values.map out = t.entries.map fun d => out d.2 := List.map_map ..
  refine ⟨metrics, ?_⟩
  rw [values]
  exact listed

end

/-! ## Main result -/

/-- **A client lists the table.** Under a configuration that was accepted, whatever
happened to the engine and wherever its cursors stand: a client that lists the routes,
or the connections of a family, while nothing else is asked, sends one request for each
entry and one more, and comes to the records of the entries, the oldest first. The
listing is at rest afterwards, and the engine is as it was but for what it counts. -/
theorem client_lists_table {config : Config} {start : Engine} {history : List Engine.Event}
    (accepted : config.validate.hasErrors = false) (started : Engine.ofConfig config = .ok start)
    (running : (start.run history).running = true) (cursors : Cursors) (client : ClientId)
    (clock : Nat → Nat) {c : Client (Engine × Nat)}
    (world : c.world.1 = { start.run history with cursors }) (inbox : c.inbox = []) :
    let e := start.run history
    (∀ limit, e.routes.size < limit →
      ∃ metrics, queryRoutes (answering client clock) limit c =
        .ok (some (e.routes.routes.values.map Route.toWire))
          { c with
            world := ({ e with cursors := { cursors with routes := .idle }, metrics },
              c.world.2 + (e.routes.size + 1))
            sent := c.sent ++ Resource.routes.requests e.routes.size }) ∧
    ∀ f limit, (e.connections.get f).size < limit →
      ∃ metrics, queryConnections (answering client clock) f limit c =
        .ok (some ((e.connections.get f).connections.values.map fun entry => entry.connection))
          { c with
            world := ({ e with
                cursors := { cursors with connections := cursors.connections.set f .idle }
                metrics },
              c.world.2 + ((e.connections.get f).size + 1))
            sent := c.sent ++ (Resource.connections f).requests (e.connections.get f).size } := by
  intro e
  let e' : Engine := { e with cursors }
  have running' : e'.running = true := running
  constructor
  · intro limit enough
    refine list_of_table (e := e') (t := e.routes.routes) client clock .routes (fun r => .route r.toWire)
      Route.toWire Wire.Route.decode running' (fun _ => rfl) ?_ world inbox enough
    intro r stored action
    obtain ⟨name, family⟩ := Engine.canonical_route accepted started stored
    exact Wire.Route.decode_encode name family action
  · intro f limit enough
    refine list_of_table (e := e') (t := (e.connections.get f).connections) client clock (.connections f)
      (fun entry => .connection entry.connection) (fun entry => entry.connection) (Wire.Connection.decode f)
      running' (fun _ => rfl) ?_ world inbox enough
    intro entry stored action
    obtain ⟨⟨orig, reply⟩, family⟩ := Engine.canonical_connection started stored
    rw [← family]
    exact Wire.Connection.decode_encode orig reply action

open Engine in
/-- The small engine has two connections, and some other client had begun to list them:
three requests give both, the one without the route that it names among them. -/
theorem client_lists_table_small :
    let cursors : Cursors := { Small.engine.cursors with connections := ⟨.behind 1, .idle⟩ }
    let c : Client (Engine × Nat) :=
      { world := ({ Small.engine with cursors }, 0), inbox := [], sent := [], timeout := standardTimeout,
        backChannel := none }
    Small.config.validate.hasErrors = false ∧ Small.engine.running = true ∧
      ∃ c', queryConnections (answering Small.client fun n => n) .v4 3 c =
          .ok (some [Small.connection 1000 7 7, { Small.connection 2000 99 7 with directions := .replyOnly }]) c' ∧
        c'.sent.length = 3 ∧ c'.world.1.cursors.connections.v4 = .idle := by
  intro cursors c
  have accepted : Small.config.validate.hasErrors = false := by decide +kernel
  have running : Small.engine.running = true := by decide +kernel
  have few : (Small.engine.connections.get .v4).size < 3 := by decide +kernel
  have stored : ((Small.engine.connections.get .v4).connections.values.map fun entry => entry.connection) =
      [Small.connection 1000 7 7, { Small.connection 2000 99 7 with directions := .replyOnly }] := by
    decide +kernel
  have started : Engine.ofConfig Small.config = .ok Small.start := rfl
  have world : c.world.1 = { Small.engine with cursors } := rfl
  obtain ⟨-, connections⟩ := client_lists_table accepted started running cursors Small.client (fun n => n)
    world rfl
  obtain ⟨metrics, listed⟩ := connections .v4 3 few
  have listed := stored ▸ listed
  refine ⟨accepted, running, _, listed, ?_, rfl⟩
  show ([] ++ (Resource.connections .v4).requests (Small.engine.connections.get .v4).size).length = 3
  rw [List.nil_append, Resource.length_requests]
  decide +kernel

end Client

end ControlPlane
