import Mathlib.Data.List.Nodup
import Typeahead.Sampling.Run

/-!
# Clients of a sampler

A sample builds at most one client, and keeps it whatever fails afterwards; closing closes all
clients that are kept. So in every run the clients that were built and not closed are those that the
sampler keeps: at most one for each of its connections, each built where its connection had none,
and each closed once.
-/

namespace Typeahead.Sampling

/-! ## What a sample does to clients -/

/-- The client that an event builds. -/
def Event.built? : Event → Option Nat
  | .connected _ client => some client
  | _ => none

/-- An event that neither builds nor closes a client. -/
def Event.IsQuiet (event : Event) : Prop :=
  event.built? = none ∧ ∀ client, event ≠ .clientClosed client

section Turns

variable {ε τ : Type}

/-- Events, and the sampler behind them, that leave the clients as they are. -/
structure Rests (sampler : Sampler τ) (events : List Event) (next : Sampler τ) : Prop where
  quiet : ∀ event ∈ events, event.IsQuiet
  connections : next.connections = sampler.connections
  clients : next.clients = sampler.clients
  built : next.built = sampler.built

theorem rests_refl (sampler : Sampler τ) : Rests sampler [] sampler where
  quiet _ member := absurd member List.not_mem_nil
  connections := rfl
  clients := rfl
  built := rfl

theorem Rests.append {sampler middle next : Sampler τ} {first second : List Event}
    (left : Rests sampler first middle) (right : Rests middle second next) :
    Rests sampler (first ++ second) next where
  quiet event member := (List.mem_append.mp member).elim (left.quiet event) (right.quiet event)
  connections := right.connections.trans left.connections
  clients := right.clients.trans left.clients
  built := right.built.trans left.built

/-- The sampler with a new client for a connection. -/
def Sampler.keeping (sampler : Sampler τ) (connection : Text) : Sampler τ :=
  { sampler with
    clients := sampler.clients ++ [(connection, sampler.built)]
    built := sampler.built + 1 }

/-- What a sample of a connection can do to the clients of a sampler. -/
inductive Turn (sampler : Sampler τ) (connection : Text) : List Event → Sampler τ → Prop
  | rests {events : List Event} {next : Sampler τ} (rests : Rests sampler events next) :
      Turn sampler connection events next
  | builds {events : List Event} {next : Sampler τ}
      (known : sampler.hasConnection connection = true)
      (missing : sampler.hasClient connection = false)
      (rests : Rests (sampler.keeping connection) events next) :
      Turn sampler connection (.connected connection sampler.built :: events) next

theorem Turn.append {sampler middle next : Sampler τ} {connection : Text}
    {first second : List Event} (turn : Turn sampler connection first middle)
    (rests : Rests middle second next) : Turn sampler connection (first ++ second) next := by
  cases turn with
  | rests before => exact .rests (before.append rests)
  | builds known missing before => exact .builds known missing (before.append rests)

variable {sampler : Sampler τ} {server : Server ε} {connection : Text}

theorem turn_connect (known : sampler.hasConnection connection = true) :
    Turn sampler connection (sampler.connect server connection).events
      (sampler.connect server connection).sampler := by
  unfold Sampler.connect
  split
  · exact .rests (rests_refl sampler)
  next missing =>
    split
    · exact .builds known (by simpa using missing) (rests_refl _)
    · refine .rests ⟨?_, rfl, rfl, rfl⟩
      simp [Event.IsQuiet, Event.built?]

variable [Sub τ] [LT τ] [DecidableLT τ] {clock : Nat → τ} {collection : Text}

theorem rests_drain :
    Rests sampler (sampler.drain clock server connection collection).events
      (sampler.drain clock server connection collection).sampler := by
  unfold Sampler.drain
  split
  · exact ⟨by simp [Event.IsQuiet, Event.built?], rfl, rfl, rfl⟩
  next stream _ =>
    refine ⟨?_, rfl, rfl, rfl⟩
    cases stream.closing <;>
      simp [Event.IsQuiet, Event.built?, Closing.events, or_imp, forall_and]

/-- A sample builds a client only for a connection that is known and has none, and keeps it. -/
theorem turn_sample :
    Turn sampler connection (sampler.sample clock server connection collection).events
      (sampler.sample clock server connection collection).sampler := by
  unfold Sampler.sample
  split
  next known =>
    have connected := @turn_connect _ _ _ server _ known
    dsimp only
    split
    · exact connected
    · split
      · exact connected
      · exact connected.append rests_drain
  next => exact .rests (rests_refl sampler)

end Turns

/-! ## Accounts of a history -/

/-- A client was built for a connection and has not been closed. -/
def IsOpen (history : List Event) (connection : Text) (client : Nat) : Prop :=
  .connected connection client ∈ history ∧ .clientClosed client ∉ history

/-- A client may be built for a connection that has none open, and an open client may be closed. -/
def Event.Fits (history : List Event) : Event → Prop
  | .connected connection _ => ∀ client, ¬IsOpen history connection client
  | .clientClosed client => ∃ connection, IsOpen history connection client
  | _ => True

/-- Every event of a history fits what was before it. -/
def IsOrderly (history : List Event) : Prop :=
  ∀ earlier event later, history = earlier ++ event :: later → event.Fits earlier

/-- The clients of a sampler are those that are open. There is at most one for each of its
connections, and none was built or closed out of turn; the clients that were ever built are
numbered from zero. -/
structure Accounts (sampler : Sampler τ) (history : List Event) : Prop where
  kept : ∀ connection client,
    (connection, client) ∈ sampler.clients ↔ IsOpen history connection client
  configured : ∀ entry ∈ sampler.clients, entry.1 ∈ sampler.connections
  single : (sampler.clients.map Prod.fst).Nodup
  apart : (sampler.clients.map Prod.snd).Nodup
  numbered : history.filterMap Event.built? = List.range sampler.built
  orderly : IsOrderly history

section Events

variable {history : List Event} {event : Event} {connection other : Text} {client number : Nat}

theorem IsOrderly.concat (orderly : IsOrderly history) (fits : event.Fits history) :
    IsOrderly (history ++ [event]) := by
  intro earlier middle later split
  rcases List.eq_nil_or_concat later with rfl | ⟨front, last, rfl⟩
  · obtain ⟨rfl, same⟩ := List.append_inj' split rfl
    exact List.head_eq_of_cons_eq same ▸ fits
  · refine orderly earlier middle front ?_
    rw [List.concat_eq_append, ← List.cons_append, ← List.append_assoc] at split
    exact (List.append_inj' split rfl).1

theorem Event.IsQuiet.ne_connected (quiet : event.IsQuiet) :
    event ≠ .connected connection client := by
  rintro rfl
  exact nomatch quiet.1

theorem Event.IsQuiet.isOpen_concat_iff (quiet : event.IsQuiet) :
    IsOpen (history ++ [event]) connection client ↔ IsOpen history connection client := by
  simp [IsOpen, quiet.ne_connected.symm, (quiet.2 client).symm]

theorem Event.IsQuiet.fits (quiet : event.IsQuiet) : event.Fits history := by
  cases event with
  | connected => exact nomatch quiet.1
  | clientClosed client => exact absurd rfl (quiet.2 client)
  | _ => exact True.intro

theorem isOpen_concat_connected_iff (unclosed : .clientClosed number ∉ history) :
    IsOpen (history ++ [.connected other number]) connection client ↔
      IsOpen history connection client ∨ connection = other ∧ client = number := by
  simp only [IsOpen, List.mem_append, List.mem_singleton, Event.connected.injEq, reduceCtorEq,
    or_false]
  constructor
  · rintro ⟨before | new, stays⟩
    · exact .inl ⟨before, stays⟩
    · exact .inr new
  · rintro (⟨before, stays⟩ | ⟨rfl, rfl⟩)
    · exact ⟨.inl before, stays⟩
    · exact ⟨.inr ⟨rfl, rfl⟩, unclosed⟩

theorem isOpen_concat_clientClosed_iff :
    IsOpen (history ++ [.clientClosed number]) connection client ↔
      IsOpen history connection client ∧ client ≠ number := by
  simp [IsOpen, and_assoc]

end Events

theorem hasClient_eq_true_iff {sampler : Sampler τ} {connection : Text} :
    sampler.hasClient connection = true ↔ ∃ client, (connection, client) ∈ sampler.clients := by
  simp [Sampler.hasClient]

namespace Accounts

variable {sampler next : Sampler τ} {history events : List Event} {event : Event}
  {connection : Text} {client : Nat}

theorem initial (connections : List Text) (sampleSize : Int) (timeBudget : τ) :
    Accounts { connections, sampleSize, timeBudget } [] where
  kept _ _ := by simp [IsOpen]
  configured _ member := absurd member List.not_mem_nil
  single := List.nodup_nil
  apart := List.nodup_nil
  numbered := rfl
  orderly earlier _ _ split := by simp at split

theorem lt_built (accounts : Accounts sampler history)
    (member : .connected connection client ∈ history) : client < sampler.built := by
  rw [← List.mem_range, ← accounts.numbered, List.mem_filterMap]
  exact ⟨_, member, rfl⟩

/-- A client that was closed had been built. -/
theorem lt_built_of_closed (accounts : Accounts sampler history)
    (member : .clientClosed client ∈ history) : client < sampler.built := by
  obtain ⟨earlier, later, split⟩ := List.append_of_mem member
  obtain ⟨connection, connected, -⟩ := accounts.orderly earlier _ later split
  exact accounts.lt_built (split ▸ List.mem_append_left _ connected)

theorem quiet (accounts : Accounts sampler history) (quiet : event.IsQuiet) :
    Accounts sampler (history ++ [event]) where
  kept connection client := by rw [quiet.isOpen_concat_iff, accounts.kept]
  configured := accounts.configured
  single := accounts.single
  apart := accounts.apart
  numbered := by
    rw [List.filterMap_append, List.filterMap_cons_none quiet.1, accounts.numbered]
    exact List.append_nil _
  orderly := accounts.orderly.concat quiet.fits

theorem rests (accounts : Accounts sampler history) (rests : Rests sampler events next) :
    Accounts next (history ++ events) := by
  have kept : Accounts sampler (history ++ events) := by
    have calm := rests.quiet
    clear rests
    induction events generalizing history with
    | nil => simpa using accounts
    | cons event rest inductionHypothesis =>
        have first := accounts.quiet (calm event List.mem_cons_self)
        have later := inductionHypothesis first fun other member =>
          calm other (List.mem_cons_of_mem _ member)
        simpa using later
  exact
    { kept := rests.clients ▸ kept.kept
      configured := rests.clients ▸ rests.connections ▸ kept.configured
      single := rests.clients ▸ kept.single
      apart := rests.clients ▸ kept.apart
      numbered := rests.built ▸ kept.numbered
      orderly := kept.orderly }

theorem keeping (accounts : Accounts sampler history)
    (known : sampler.hasConnection connection = true)
    (missing : sampler.hasClient connection = false) :
    Accounts (sampler.keeping connection)
      (history ++ [.connected connection sampler.built]) where
  kept other client := by
    have unclosed : .clientClosed sampler.built ∉ history :=
      fun member => Nat.lt_irrefl _ (accounts.lt_built_of_closed member)
    rw [isOpen_concat_connected_iff unclosed, ← accounts.kept]
    simp [Sampler.keeping]
  configured entry member := by
    rcases List.mem_append.mp member with before | new
    · exact accounts.configured entry before
    · rw [List.mem_singleton.mp new]
      exact List.contains_iff_mem.mp known
  single := by
    have fresh : connection ∉ sampler.clients.map Prod.fst := by
      rw [← Bool.not_eq_true, hasClient_eq_true_iff] at missing
      simpa using missing
    rw [Sampler.keeping, ← List.concat_eq_append, List.map_concat]
    exact accounts.single.concat fresh
  apart := by
    have fresh : sampler.built ∉ sampler.clients.map Prod.snd := by
      intro member
      obtain ⟨⟨other, _⟩, entry, rfl⟩ := List.mem_map.mp member
      exact Nat.lt_irrefl _ (accounts.lt_built ((accounts.kept _ _).mp entry).1)
    rw [Sampler.keeping, ← List.concat_eq_append, List.map_concat]
    exact accounts.apart.concat fresh
  numbered := by
    rw [List.filterMap_append, accounts.numbered]
    exact List.range_succ.symm
  orderly := by
    refine accounts.orderly.concat fun client isOpen => ?_
    have entry := (accounts.kept connection client).mpr isOpen
    rw [← Bool.not_eq_true, hasClient_eq_true_iff] at missing
    exact missing ⟨client, entry⟩

theorem turn (accounts : Accounts sampler history) (turn : Turn sampler connection events next) :
    Accounts next (history ++ events) := by
  cases turn with
  | rests rests => exact accounts.rests rests
  | builds known missing rests =>
      have built := (accounts.keeping known missing).rests rests
      simpa using built

/-- Closing the first of the clients leaves the others. -/
theorem closed {rest : List (Text × Nat)} (accounts : Accounts sampler history)
    (first : sampler.clients = (connection, client) :: rest) :
    Accounts { sampler with clients := rest } (history ++ [.clientClosed client]) where
  kept other number := by
    have apart := accounts.apart
    rw [first, List.map_cons, List.nodup_cons, List.mem_map] at apart
    rw [isOpen_concat_clientClosed_iff, ← accounts.kept, first, List.mem_cons, Prod.mk.injEq]
    constructor
    · exact fun member => ⟨.inr member, fun same => apart.1 ⟨_, member, same⟩⟩
    · rintro ⟨⟨-, same⟩ | member, differs⟩
      · exact absurd same differs
      · exact member
  configured entry member :=
    accounts.configured entry (first ▸ List.mem_cons_of_mem _ member)
  single := (first ▸ accounts.single).tail
  apart := (first ▸ accounts.apart).tail
  numbered := by
    rw [List.filterMap_append, accounts.numbered]
    exact List.append_nil _
  orderly := by
    refine accounts.orderly.concat ⟨connection, (accounts.kept _ _).mp ?_⟩
    rw [first]
    exact List.mem_cons_self

theorem close (accounts : Accounts sampler history) :
    Accounts sampler.close.sampler (history ++ sampler.close.events) := by
  unfold Sampler.close
  generalize same : sampler.clients = clients
  induction clients generalizing sampler history with
  | nil =>
      rw [List.map_nil, List.append_nil, ← same]
      exact accounts
  | cons first rest inductionHypothesis =>
      have others := inductionHypothesis (accounts.closed same) rfl
      simpa using others

section Runs

variable {ε : Type} [Sub τ] [LT τ] [DecidableLT τ]

theorem call (accounts : Accounts sampler history) (clock : Nat → τ) (call : Call ε) :
    Accounts (sampler.call clock call).sampler (history ++ (sampler.call clock call).events) :=
  match call with
  | .sample _ _ _ => accounts.turn turn_sample
  | .close => accounts.close

theorem run (accounts : Accounts sampler history) (clock : Nat → τ) (calls : List (Call ε)) :
    Accounts (sampler.run clock calls).sampler
      (history ++ (sampler.run clock calls).events) := by
  induction calls generalizing sampler history with
  | nil => simpa [Sampler.run] using accounts
  | cons first rest inductionHypothesis =>
      have others := inductionHypothesis (accounts.call clock first)
      rwa [List.append_assoc] at others

end Runs

end Accounts

/-! ## Runs -/

section Runs

variable {ε τ : Type}

theorem Turn.connections {sampler next : Sampler τ} {connection : Text} {events : List Event}
    (turn : Turn sampler connection events next) : next.connections = sampler.connections := by
  cases turn with
  | rests rests => exact rests.connections
  | builds _ _ rests => exact rests.connections

/-- Closing closes the clients that are open, and each of them once. -/
theorem Accounts.events_close {sampler : Sampler τ} {history : List Event}
    (accounts : Accounts sampler history) :
    sampler.close.events.Nodup ∧
      ∀ event, event ∈ sampler.close.events ↔
        ∃ connection client, IsOpen history connection client ∧ event = .clientClosed client := by
  constructor
  · have same : sampler.close.events = (sampler.clients.map Prod.snd).map .clientClosed := by
      rw [List.map_map]
      rfl
    rw [same]
    exact accounts.apart.map fun _ _ => Event.clientClosed.inj
  · intro event
    simp [Sampler.close, ← accounts.kept, eq_comm]

variable [Sub τ] [LT τ] [DecidableLT τ]

theorem connections_run (sampler : Sampler τ) (clock : Nat → τ) (calls : List (Call ε)) :
    (sampler.run clock calls).sampler.connections = sampler.connections := by
  induction calls generalizing sampler with
  | nil => rfl
  | cons first rest inductionHypothesis =>
      refine (inductionHypothesis _).trans ?_
      cases first with
      | sample server connection collection => exact turn_sample.connections
      | close => rfl

/-- The building of a client for a connection, or the failure to build one. -/
def Sampler.attempt (sampler : Sampler τ) (server : Server ε) (connection : Text) : Event :=
  match server.connect with
  | .ok () => .connected connection sampler.built
  | .error _ => .refused connection

/-- The first thing that a sample does for a connection without a client is to build one, and it
keeps the client whatever fails afterwards. -/
theorem sample_of_missing {sampler : Sampler τ} (clock : Nat → τ) (server : Server ε)
    {connection : Text} (collection : Text) (known : sampler.hasConnection connection = true)
    (missing : sampler.hasClient connection = false) :
    let call := sampler.sample clock server connection collection
    call.events.head? = some (sampler.attempt server connection) ∧
      (server.connect = .ok () →
        call.sampler.clients = sampler.clients ++ [(connection, sampler.built)]) := by
  rw [Sampler.sample, if_pos known]
  simp only [Sampler.connect, Sampler.attempt, missing, Bool.false_eq_true, if_false]
  cases server.connect with
  | error fault => exact ⟨rfl, fun connects => by contradiction⟩
  | ok _ =>
      cases Sampler.findCollection server connection collection with
      | error error => exact ⟨rfl, fun _ => rfl⟩
      | ok _ => exact ⟨rfl, fun _ => rests_drain.clients⟩

/-- In every run of a new sampler, the clients that were built and not closed are those that it
keeps: at most one for each of its connections, each built where its connection had none open.
Closing closes each of them once and keeps none, and then a sample of a connection that is known
builds a new one, or fails to. -/
theorem accounts_run (connections : List Text) (sampleSize : Int) (timeBudget : τ)
    (clock : Nat → τ) (calls : List (Call ε)) :
    let run := ({ connections, sampleSize, timeBudget } : Sampler τ).run clock calls
    let closed := run.sampler.close
    run.sampler.connections = connections ∧
      Accounts run.sampler run.events ∧
      (closed.events.Nodup ∧
        (∀ event, event ∈ closed.events ↔
          ∃ connection client, IsOpen run.events connection client ∧
            event = .clientClosed client) ∧
        closed.sampler.clients = [] ∧
        ∀ connection client, ¬IsOpen (run.events ++ closed.events) connection client) ∧
      ∀ connection ∈ connections, ∀ (server : Server ε) (collection : Text),
        let sampled := closed.sampler.sample clock server connection collection
        sampled.events.head? = some (run.sampler.attempt server connection) ∧
          (server.connect = .ok () →
            sampled.sampler.clients = [(connection, run.sampler.built)] ∧
              ∀ other, .connected other run.sampler.built ∉ run.events) := by
  intro run closed
  have same : run.sampler.connections = connections := connections_run _ clock calls
  have accounts : Accounts run.sampler run.events :=
    (Accounts.initial connections sampleSize timeBudget).run clock calls
  obtain ⟨once, exactly⟩ := accounts.events_close
  refine ⟨same, accounts, ⟨once, exactly, rfl, ?_⟩, ?_⟩
  · intro connection client isOpen
    exact absurd ((accounts.close.kept connection client).mpr isOpen) List.not_mem_nil
  · intro connection known server collection sampled
    have has : closed.sampler.hasConnection connection = true :=
      List.contains_iff_mem.mpr (same ▸ known)
    have fresh (other : Text) : .connected other run.sampler.built ∉ run.events :=
      fun member => Nat.lt_irrefl _ (accounts.lt_built member)
    obtain ⟨first, kept⟩ := sample_of_missing clock server collection has rfl
    exact ⟨first, fun connects => ⟨kept connects, fresh⟩⟩

end Runs

/-- A server that cannot be asked for a sample. -/
def mute : Server Unit where
  aggregate _ := .error (.database ['x'])

/-- Calls that fail before, with and after the building of a client. -/
def mishaps : List (Call Unit) :=
  let fault : Fault Unit := .database ['x']
  [ .sample { mute with connect := .error fault } ['a'] ['u'],
    .sample { mute with database := .error fault } ['a'] ['u'],
    .sample { mute with collection := fun _ => .error fault } ['b'] ['u'],
    .close,
    .sample mute ['b'] ['u'],
    .sample mute ['c'] ['u'] ]

/-- The third client is open and is closed next; after that a fourth one is built. -/
theorem accounts_run_mishaps :
    let run := ({ connections := [['a'], ['b']], sampleSize := 3, timeBudget := 1 } :
      Sampler Nat).run id mishaps
    run.events = [.refused ['a'], .connected ['a'] 0, .connected ['b'] 1, .clientClosed 0,
        .clientClosed 1, .connected ['b'] 2, .asked ['u'] 3] ∧
      IsOpen run.events ['b'] 2 ∧
      .clientClosed 2 ∈ run.sampler.close.events ∧
      (run.sampler.close.sampler.sample id mute ['b'] ['u']).sampler.clients = [(['b'], 3)] := by
  intro run
  obtain ⟨-, accounts, ⟨-, exactly, -, -⟩, rebuilds⟩ :=
    accounts_run [['a'], ['b']] 3 1 id mishaps
  have kept : IsOpen run.events ['b'] 2 := (accounts.kept ['b'] 2).mp (by decide)
  refine ⟨rfl, kept, (exactly _).mpr ⟨_, _, kept, rfl⟩, ?_⟩
  exact ((rebuilds ['b'] (by decide) mute ['u']).2 rfl).1

end Typeahead.Sampling
