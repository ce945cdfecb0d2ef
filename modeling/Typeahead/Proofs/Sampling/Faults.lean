import Typeahead.Proofs.Sampling.Budget
import Typeahead.Proofs.Sampling.Clients

/-!
# Errors that leave a sampler

Every call to a database can fail. A fault of opening the connection, of finding the database and
of asking for a sample, reading it or closing it is told with the obstacle that it is. The call
that looks up the collection has no such care taken of it: its fault is passed on as it is. And
when all calls have succeeded, the documents may list an integer beyond the range of doubles, of
which no schema can be made. Nothing else leaves a sampler than its own errors.
-/

namespace Typeahead.Sampling

open Schema (Survey sighted)

/-! ## How the calls of a sample go -/

/-- How the calls of a sample go: one of them breaks it off, which is told with an obstacle or not
told of, or some documents are read. -/
inductive Course (ε : Type) where
  | breaks (obstacle? : Option Obstacle) (fault : Fault ε)
  | reads (documents : List Document)

/-- What a sample gives when its calls have gone in some way. -/
def Course.result {ε : Type} : Course ε → Except (SampleError (Breakdown ε)) Schema
  | breaks (some obstacle) fault => .error (Sampler.wrap obstacle fault)
  | breaks none fault => .error (.other (.fault fault))
  | reads documents => Sampler.infer documents

section Courses

variable {ε τ : Type}

/-- A client for a connection is open, or can be built. -/
def Sampler.Reaches (sampler : Sampler τ) (server : Server ε) (connection : Text) : Prop :=
  sampler.hasClient connection = true ∨ server.connect = .ok ()

/-- The calls before a sample is asked for succeed. -/
structure Sampler.Finds (sampler : Sampler τ) (server : Server ε) (connection collection : Text) :
    Prop where
  reaches : sampler.Reaches server connection
  database : server.database = .ok ()
  collection : server.collection collection = .ok ()

theorem connect_eq_ok_iff {sampler : Sampler τ} {server : Server ε} {connection : Text} :
    (sampler.connect server connection).result = .ok () ↔ sampler.Reaches server connection := by
  unfold Sampler.connect Sampler.Reaches
  split
  next present => simp [present]
  next missing =>
    split
    next built => simp [built]
    next fault refused => simp [missing, refused]

variable [Sub τ] [LT τ] [DecidableLT τ]

/-- The documents of a stream that are read, and whether reading stops with the last of them. -/
def Sampler.reading (sampler : Sampler τ) (clock : Nat → τ) (stream : Stream ε) :
    List Document × Bool :=
  takeUntil (sampler.isSpent clock) (sampler.readings + 1) stream.documents

/-- How the calls go for a connection that is known. Each call is made when those before it have
succeeded. -/
inductive Goes (sampler : Sampler τ) (clock : Nat → τ) (server : Server ε)
    (connection collection : Text) : Course ε → Prop where
  | opening {fault : Fault ε} (missing : sampler.hasClient connection = false)
      (refused : server.connect = .error fault) :
      Goes sampler clock server connection collection (.breaks (some (.opening connection)) fault)
  | findingDatabase {fault : Fault ε} (reaches : sampler.Reaches server connection)
      (refused : server.database = .error fault) :
      Goes sampler clock server connection collection
        (.breaks (some (.findingDatabase connection)) fault)
  | lookingUp {fault : Fault ε} (reaches : sampler.Reaches server connection)
      (found : server.database = .ok ()) (refused : server.collection collection = .error fault) :
      Goes sampler clock server connection collection (.breaks none fault)
  | asking {fault : Fault ε} (finds : sampler.Finds server connection collection)
      (refused : server.aggregate collection = .error fault) :
      Goes sampler clock server connection collection
        (.breaks (some (.sampling connection collection)) fault)
  | reading {stream : Stream ε} {fault : Fault ε}
      (finds : sampler.Finds server connection collection)
      (asked : server.aggregate collection = .ok stream)
      (left : stream.Leaves ((sampler.reading clock stream).2 = true) fault) :
      Goes sampler clock server connection collection
        (.breaks (some (.sampling connection collection)) fault)
  | inferring {stream : Stream ε} (finds : sampler.Finds server connection collection)
      (asked : server.aggregate collection = .ok stream)
      (spotless : ∀ fault, ¬stream.Leaves ((sampler.reading clock stream).2 = true) fault) :
      Goes sampler clock server connection collection (.reads (sampler.reading clock stream).1)

variable {sampler : Sampler τ} {clock : Nat → τ} {server : Server ε} {connection collection : Text}

/-- There is a way that the calls go. -/
theorem exists_goes (sampler : Sampler τ) (clock : Nat → τ) (server : Server ε)
    (connection collection : Text) :
    ∃ course, Goes sampler clock server connection collection course := by
  by_cases reaches : sampler.Reaches server connection
  case neg =>
    rw [Sampler.Reaches, not_or, Bool.not_eq_true] at reaches
    cases connects : server.connect with
    | ok _ => exact absurd connects reaches.2
    | error fault => exact ⟨_, .opening reaches.1 connects⟩
  case pos =>
    cases database : server.database with
    | error fault => exact ⟨_, .findingDatabase reaches database⟩
    | ok _ =>
      cases found : server.collection collection with
      | error fault => exact ⟨_, .lookingUp reaches database found⟩
      | ok _ =>
        have finds : sampler.Finds server connection collection := ⟨reaches, database, found⟩
        cases asked : server.aggregate collection with
        | error fault => exact ⟨_, .asking finds asked⟩
        | ok stream =>
          by_cases left :
              ∃ fault, stream.Leaves ((sampler.reading clock stream).2 = true) fault
          · obtain ⟨fault, left⟩ := left
            exact ⟨_, .reading finds asked left⟩
          · exact ⟨_, .inferring finds asked (not_exists.mp left)⟩

theorem reading_connect (stream : Stream ε) :
    (sampler.connect server connection).sampler.reading clock stream =
      sampler.reading clock stream := by
  unfold Sampler.connect
  split
  · rfl
  · split <;> rfl

theorem result_sample_of_finds (known : sampler.hasConnection connection = true)
    (finds : sampler.Finds server connection collection) :
    (sampler.sample clock server connection collection).result =
      ((sampler.connect server connection).sampler.drain clock server connection
        collection).result := by
  have found : Sampler.findCollection server connection collection = .ok () := by
    simp [Sampler.findCollection, finds.database, finds.collection]
  rw [sample_of_found clock known (connect_eq_ok_iff.mpr finds.reaches) found]

theorem result_drain {stream : Stream ε} (asked : server.aggregate collection = .ok stream) :
    (sampler.drain clock server connection collection).result =
      match stream.closing.fault? (stream.endingFault? (sampler.reading clock stream).2) with
      | some fault => .error (Sampler.wrap (.sampling connection collection) fault)
      | none => Sampler.infer (sampler.reading clock stream).1 := by
  rw [Sampler.drain, asked]
  rfl

/-- A sample gives what belongs to the way that its calls have gone. -/
theorem Goes.result_sample {course : Course ε}
    (goes : Goes sampler clock server connection collection course)
    (known : sampler.hasConnection connection = true) :
    (sampler.sample clock server connection collection).result = course.result := by
  cases goes with
  | opening missing refused =>
      simp [Sampler.sample, known, Sampler.connect, missing, refused, Course.result]
  | findingDatabase reaches refused =>
      simp [Sampler.sample, known, connect_eq_ok_iff.mpr reaches, Sampler.findCollection, refused,
        Course.result]
  | lookingUp reaches found refused =>
      simp [Sampler.sample, known, connect_eq_ok_iff.mpr reaches, Sampler.findCollection, found,
        refused, Course.result]
  | asking finds refused =>
      rw [result_sample_of_finds known finds, Sampler.drain, refused]
      rfl
  | reading finds asked left =>
      rw [result_sample_of_finds known finds, result_drain asked, reading_connect,
        fault?_eq_some_iff.mpr left]
      rfl
  | inferring finds asked spotless =>
      rw [result_sample_of_finds known finds, result_drain asked, reading_connect,
        fault?_eq_none_iff.mpr spotless]
      rfl

/-- What a sample gives says how its calls have gone. -/
theorem result_sample_eq_iff (known : sampler.hasConnection connection = true)
    {result : Except (SampleError (Breakdown ε)) Schema} :
    (sampler.sample clock server connection collection).result = result ↔
      ∃ course, Goes sampler clock server connection collection course ∧
        course.result = result := by
  constructor
  · intro same
    obtain ⟨course, goes⟩ := exists_goes sampler clock server connection collection
    exact ⟨course, goes, (goes.result_sample known).symm.trans same⟩
  · rintro ⟨course, goes, same⟩
    exact (goes.result_sample known).trans same

theorem result_sample_of_unknown (unknown : sampler.hasConnection connection = false) :
    (sampler.sample clock server connection collection).result =
      .error (.unknownConnection connection) := by
  simp [Sampler.sample, unknown]

end Courses

/-! ## What leaves a sampler -/

/-- The errors that are no errors of the sampler: the fault of looking up the collection, and a
number that is beyond the range of doubles. -/
inductive Course.Escapes {ε : Type} : Course ε → Breakdown ε → Prop where
  | lookingUp {fault : Fault ε} : Escapes (.breaks none fault) (.fault fault)
  | outOfRange {documents : List Document}
      (unlisted : (({} : Survey).addAll documents).schema? = none) :
      Escapes (.reads documents) .outOfRange

section Results

variable {course : Course Empty}

theorem Course.result_ne_unknownConnection {name : Text} :
    course.result ≠ .error (.unknownConnection name) := by
  cases course with
  | reads documents => simp [Course.result, infer_eq_error_iff]
  | breaks obstacle? fault => cases obstacle? <;> cases fault <;> simp [Course.result, Sampler.wrap]

/-- If the databases raise no other faults than their own, then each fault that has an obstacle is
told with it. -/
theorem Course.result_eq_unsampled_iff {reason : Text} :
    course.result = .error (.unsampled reason) ↔
      ∃ obstacle message, course = .breaks (some obstacle) (.database message) ∧
        obstacle.reason message = reason := by
  cases course with
  | reads documents => simp [Course.result, infer_eq_error_iff]
  | breaks obstacle? fault =>
      cases obstacle? with
      | none => simp [Course.result]
      | some obstacle =>
          cases fault with
          | database message => simp [Course.result, Sampler.wrap]
          | other error => exact error.elim

theorem Course.result_eq_other_iff {breakdown : Breakdown Empty} :
    course.result = .error (.other breakdown) ↔ course.Escapes breakdown := by
  constructor
  · intro same
    cases course with
    | reads documents =>
        obtain ⟨unlisted, ⟨⟩⟩ := infer_eq_error_iff.mp same
        exact .outOfRange unlisted
    | breaks obstacle? fault =>
        cases obstacle? with
        | none =>
            cases same
            exact .lookingUp
        | some obstacle =>
            cases fault with
            | database message => cases same
            | other error => exact error.elim
  · rintro (_ | unlisted)
    · rfl
    · exact infer_eq_error_iff.mpr ⟨unlisted, rfl⟩

end Results

/-! ## Building a client again -/

section Again

variable {ε τ : Type}

/-- A call samples a collection of a connection. -/
def Call.Samples (connection : Text) : Call ε → Prop
  | .sample _ other _ => other = connection
  | .close => False

theorem Turn.hasClient_of_ne {sampler next : Sampler τ} {connection other : Text}
    {events : List Event} (turn : Turn sampler other events next) (apart : other ≠ connection) :
    next.hasClient connection = sampler.hasClient connection := by
  cases turn with
  | rests rests => rw [Sampler.hasClient, rests.clients, Sampler.hasClient]
  | builds known missing rests =>
      rw [Sampler.hasClient, rests.clients]
      simp [Sampler.keeping, Sampler.hasClient, apart]

variable [Sub τ] [LT τ] [DecidableLT τ]

/-- Other calls give a connection no client. -/
theorem hasClient_run_eq_false {sampler : Sampler τ} {connection : Text} {clock : Nat → τ}
    {calls : List (Call ε)} (missing : sampler.hasClient connection = false)
    (others : ∀ call ∈ calls, ¬call.Samples connection) :
    (sampler.run clock calls).sampler.hasClient connection = false := by
  induction calls generalizing sampler with
  | nil => exact missing
  | cons first rest inductionHypothesis =>
      refine inductionHypothesis ?_ fun call member => others call (List.mem_cons_of_mem _ member)
      cases first with
      | sample server other collection =>
          have apart : other ≠ connection := others _ List.mem_cons_self
          exact (turn_sample.hasClient_of_ne apart).trans missing
      | close => rfl

/-- A sample whose client cannot be built leaves the sampler as it was. -/
theorem sampler_sample_of_refused {sampler : Sampler τ} {connection : Text} {clock : Nat → τ}
    {server : Server ε} {collection : Text} {fault : Fault ε}
    (missing : sampler.hasClient connection = false) (refused : server.connect = .error fault) :
    (sampler.sample clock server connection collection).sampler = sampler := by
  unfold Sampler.sample
  split
  · simp [Sampler.connect, missing, refused]
  · rfl

/-- A client that could not be built is tried again by the next sample that needs it, whatever is
called between them. -/
theorem head?_events_sample_again {sampler : Sampler τ} {connection : Text} {clock : Nat → τ}
    {server : Server ε} {collection : Text} {fault : Fault ε}
    (known : sampler.hasConnection connection = true)
    (missing : sampler.hasClient connection = false) (refused : server.connect = .error fault)
    {calls : List (Call ε)} (others : ∀ call ∈ calls, ¬call.Samples connection)
    (later : Server ε) (target : Text) :
    let failed := sampler.sample clock server connection collection
    let next := (failed.sampler.run clock calls).sampler
    (next.sample clock later connection target).events.head? =
      some (next.attempt later connection) := by
  intro failed next
  have kept : failed.sampler = sampler := sampler_sample_of_refused missing refused
  have knownThen : next.hasConnection connection = true := by
    rw [Sampler.hasConnection, connections_run, kept]
    exact known
  have missingThen : next.hasClient connection = false :=
    hasClient_run_eq_false (kept.symm ▸ missing) others
  exact (sample_of_missing clock later target knownThen missingThen).1

end Again

section Errors

variable {τ : Type} [Sub τ] [LT τ] [DecidableLT τ]

section

variable {sampler : Sampler τ} {clock : Nat → τ} {server : Server Empty}
  {connection collection : Text}

omit [Sub τ] [LT τ] [DecidableLT τ] in
theorem hasConnection_eq_true_iff :
    sampler.hasConnection connection = true ↔ connection ∈ sampler.connections :=
  List.contains_iff_mem

/-- The error of a sample is that of a connection that is not known, or belongs to the way that the
calls have gone. -/
theorem result_sample_eq_error_iff {error : SampleError (Breakdown Empty)} :
    (sampler.sample clock server connection collection).result = .error error ↔
      connection ∉ sampler.connections ∧ error = .unknownConnection connection ∨
        connection ∈ sampler.connections ∧ ∃ course,
          Goes sampler clock server connection collection course ∧
            course.result = .error error := by
  cases known : sampler.hasConnection connection with
  | false =>
      have absent : connection ∉ sampler.connections := by
        rw [← hasConnection_eq_true_iff, known]
        exact Bool.false_ne_true
      rw [result_sample_of_unknown known]
      simp [absent, @eq_comm _ error]
  | true =>
      have present := hasConnection_eq_true_iff.mp known
      rw [result_sample_eq_iff known]
      simp [present]

/-- An integer that is beyond the range of doubles has more than sixty-four bits. -/
theorem Course.exists_long {course : Course Empty}
    (unlisted : course.result = .error (.other .outOfRange)) :
    ∃ documents, course = .reads documents ∧ ∃ route value,
      ⟨route, .number (.integer value)⟩ ∈ sighted documents ∧ 2 ^ 64 ≤ value.natAbs := by
  cases Course.result_eq_other_iff.mp unlisted with
  | outOfRange none => exact ⟨_, rfl, Survey.exists_long_of_schema?_eq_none none⟩

end

/-- If every call to the databases succeeds or raises a fault of theirs, then a sampler says that a
connection is not known exactly if it is not, and that there is no sample exactly if a call fails
that has an obstacle. Nothing else leaves it than the fault of looking up the collection, and the
error of a number beyond the range of doubles, which only integers of more than sixty-four bits
can be. A client that could not be built is tried again by the next sample that needs it, whatever
else is called before. -/
theorem error_sample_iff (sampler : Sampler τ) (clock : Nat → τ) (server : Server Empty)
    (connection collection : Text) :
    let call := sampler.sample clock server connection collection
    let goes := Goes sampler clock server connection collection
    (∀ name, call.result = .error (.unknownConnection name) ↔
      connection ∉ sampler.connections ∧ name = connection) ∧
    (∀ reason, call.result = .error (.unsampled reason) ↔
      connection ∈ sampler.connections ∧ ∃ obstacle message,
        goes (.breaks (some obstacle) (.database message)) ∧ obstacle.reason message = reason) ∧
    (∀ breakdown, call.result = .error (.other breakdown) ↔
      connection ∈ sampler.connections ∧ ∃ course, goes course ∧ course.Escapes breakdown) ∧
    (call.result = .error (.other .outOfRange) → ∃ documents, goes (.reads documents) ∧
      ∃ route value, ⟨route, .number (.integer value)⟩ ∈ sighted documents ∧
        2 ^ 64 ≤ value.natAbs) ∧
    ∀ fault, connection ∈ sampler.connections → sampler.hasClient connection = false →
      server.connect = .error fault →
      ∀ calls : List (Call Empty), (∀ other ∈ calls, ¬other.Samples connection) →
        ∀ (later : Server Empty) (target : Text),
          let next := (call.sampler.run clock calls).sampler
          (next.sample clock later connection target).events.head? =
            some (next.attempt later connection) := by
  intro call goes
  have result {error : SampleError (Breakdown Empty)} :
      call.result = .error error ↔
        connection ∉ sampler.connections ∧ error = .unknownConnection connection ∨
          connection ∈ sampler.connections ∧ ∃ course, goes course ∧ course.result = .error error :=
    result_sample_eq_error_iff
  refine ⟨fun name => ?_, fun reason => ?_, fun breakdown => ?_, fun unlisted => ?_, ?_⟩
  · rw [result]
    simp [Course.result_ne_unknownConnection]
  · rw [result]
    simp only [Course.result_eq_unsampled_iff, reduceCtorEq, and_false, false_or]
    grind
  · rw [result]
    simp only [Course.result_eq_other_iff, reduceCtorEq, and_false, false_or]
  · obtain ⟨-, contradictory⟩ | ⟨-, course, gone, same⟩ := result.mp unlisted
    · contradiction
    · obtain ⟨documents, rfl, long⟩ := Course.exists_long same
      exact ⟨documents, gone, long⟩
  · intro fault known missing refused calls others later target
    exact head?_events_sample_again (hasConnection_eq_true_iff.mpr known) missing refused others
      later target

end Errors

/-- A server that takes no text for the name of a collection. -/
def picky : Server Empty where
  collection _ := .error (.database ['x'])
  aggregate _ := .ok { documents := [] }

/-- The fault of looking up the collection is neither a schema nor an error of the sampler. -/
theorem fault_sample_picky :
    let result := (hasty.sample id picky ['c'] ['u']).result
    (∀ schema, result ≠ .ok schema) ∧ (∀ name, result ≠ .error (.unknownConnection name)) ∧
      ∀ reason, result ≠ .error (.unsampled reason) :=
  ⟨nofun, nofun, nofun⟩

/-- A connection that could not be opened is opened again, behind a close; and there the fault of
looking up the collection is passed on. -/
theorem error_sample_iff_refused :
    let refusing : Server Empty := { picky with connect := .error (.database ['x']) }
    let refused := hasty.sample id refusing ['c'] ['u']
    refused.result = .error (.unsampled ((Obstacle.opening ['c']).reason ['x'])) ∧
      ((refused.sampler.run id ([.close] : List (Call Empty))).sampler.sample id picky ['c']
        ['u']).events.head? = some (.connected ['c'] 0) ∧
      (hasty.sample id picky ['c'] ['u']).result =
        .error (.other (.fault (.database ['x']))) := by
  intro refusing refused
  have known : ['c'] ∈ hasty.connections := by decide
  obtain ⟨-, unsampled, -, -, again⟩ := error_sample_iff hasty id refusing ['c'] ['u']
  obtain ⟨-, -, other, -, -⟩ := error_sample_iff hasty id picky ['c'] ['u']
  refine ⟨?_, ?_, ?_⟩
  · exact (unsampled _).mpr ⟨known, _, _, .opening rfl rfl, rfl⟩
  · refine again _ known rfl rfl [.close] ?_ picky ['u']
    simp [Call.Samples]
  · exact (other _).mpr ⟨known, _, .lookingUp (.inr rfl) rfl rfl, .lookingUp⟩

end Typeahead.Sampling
