import Typeahead.Proofs.Schema.Throughout
import Typeahead.Sampling.Sampler

/-!
# Samples within a time budget

Reading a stream stops behind the first document after which the budget is spent, so that the
documents that were read are the shortest prefix that spends it, or all there are. What a sampler
gives follows from these documents and from the faults that were raised until then: behind the
last document, unless reading had stopped, and on closing the stream. Whichever was raised, a
stream that can be closed is closed once.

Without a fault a sampler gives the schema of the documents that were read, if they have one.
Documents that list an integer beyond the range of doubles have none, and there an error that is
none of the sampler's own leaves it.
-/

namespace Typeahead.Sampling

open Schema (Survey Textual ListsBeyond sighted)

/-! ## The documents that are paid for -/

section Taking

variable {α : Type} {isSpent : Nat → Bool}

/-- The budget is spent with the last of the items that were read. Whether it is depends on their
number. -/
def Spends (isSpent : Nat → Bool) (taken : List α) : Prop :=
  taken ≠ [] ∧ isSpent taken.length = true

/-- The items up to the first one with which the budget is spent, or all if there is none. -/
structure Affords (isSpent : Nat → Bool) (items taken : List α) : Prop where
  inside : taken <+: items
  within : ∀ count, 0 < count → count < taken.length → isSpent count = false
  whole : taken = items ∨ Spends isSpent taken

theorem affords_singleton {item : α} {rest : List α} (spent : isSpent 1 = true) :
    Affords isSpent (item :: rest) [item] where
  inside := List.prefix_append [item] rest
  within count positive short := by
    rw [List.length_singleton] at short
    omega
  whole := .inr ⟨List.cons_ne_nil _ _, spent⟩

theorem spends_cons_iff (unspent : isSpent 1 = false) {item : α} {taken : List α} :
    Spends isSpent (item :: taken) ↔ Spends (fun count => isSpent (count + 1)) taken := by
  cases taken with
  | nil => simp [Spends, unspent]
  | cons next rest => simp [Spends]

theorem Affords.cons {item : α} {rest taken : List α} (unspent : isSpent 1 = false)
    (affords : Affords (fun count => isSpent (count + 1)) rest taken) :
    Affords isSpent (item :: rest) (item :: taken) where
  inside := List.cons_prefix_cons.mpr ⟨rfl, affords.inside⟩
  within
    | 1, _, _ => unspent
    | count + 2, _, short =>
        affords.within (count + 1) (by omega) (Nat.lt_of_succ_lt_succ short)
  whole := by
    rw [spends_cons_iff unspent, List.cons.injEq]
    exact affords.whole.imp_left fun all => ⟨rfl, all⟩

/-- What is read of a stream is what the budget affords. -/
theorem affords_takeUntil (isSpent : Nat → Bool) (start : Nat) (items : List α) :
    Affords (fun count => isSpent (start + count)) items
      (takeUntil isSpent (start + 1) items).1 := by
  induction items generalizing start with
  | nil => exact ⟨List.prefix_refl _, nofun, .inl rfl⟩
  | cons item rest inductionHypothesis =>
      -- The items behind the first one are counted from one further on.
      have later := inductionHypothesis (start + 1)
      simp only [Nat.add_right_comm start 1] at later
      rw [takeUntil]
      cases last : isSpent (start + 1) with
      | true => exact affords_singleton last
      | false => exact Affords.cons last later

/-- Reading stops if and only if the budget is spent. -/
theorem spends_takeUntil_iff (isSpent : Nat → Bool) (start : Nat) (items : List α) :
    Spends (fun count => isSpent (start + count)) (takeUntil isSpent (start + 1) items).1 ↔
      (takeUntil isSpent (start + 1) items).2 = true := by
  induction items generalizing start with
  | nil => simp [takeUntil, Spends]
  | cons item rest inductionHypothesis =>
      have later := inductionHypothesis (start + 1)
      simp only [Nat.add_right_comm start 1] at later
      rw [takeUntil]
      cases last : isSpent (start + 1) with
      | true => simp [Spends, last]
      | false => exact (spends_cons_iff last).trans later

end Taking

/-! ## Faults of a stream -/

section Faults

variable {ε τ : Type}

/-- The fault that is left after a stream was read and closed: that of closing it, or else the one
behind its last document, if reading did not stop before. -/
inductive Stream.Leaves (stream : Stream ε) (stopped : Prop) : Fault ε → Prop where
  | closing {fault : Fault ε} (fails : stream.closing = .fails fault) : stream.Leaves stopped fault
  | reading {fault : Fault ε} (reached : ¬stopped) (raised : stream.fault? = some fault)
      (closes : ∀ other, stream.closing ≠ .fails other) : stream.Leaves stopped fault

theorem Stream.Leaves.congr {stream : Stream ε} {stopped other : Prop} {fault : Fault ε}
    (left : stream.Leaves stopped fault) (same : stopped ↔ other) : stream.Leaves other fault :=
  propext same ▸ left

theorem fault?_eq_some_iff {stream : Stream ε} {stopped : Bool} {fault : Fault ε} :
    stream.closing.fault? (stream.endingFault? stopped) = some fault ↔
      stream.Leaves (stopped = true) fault := by
  unfold Closing.fault? Stream.endingFault?
  constructor
  · intro left
    split at left
    next other fails => exact .closing (Option.some.inj left ▸ fails)
    all_goals
      next closes =>
        cases stopped with
        | true => contradiction
        | false => exact .reading Bool.false_ne_true left (by simp [closes])
  · rintro (fails | ⟨reached, raised, closes⟩)
    · rw [fails]
    · split
      next other fails => exact absurd fails (closes other)
      all_goals rw [if_neg reached, raised]

theorem fault?_eq_none_iff {stream : Stream ε} {stopped : Bool} :
    stream.closing.fault? (stream.endingFault? stopped) = none ↔
      ∀ fault, ¬stream.Leaves (stopped = true) fault := by
  simp only [Option.eq_none_iff_forall_ne_some, ne_eq, fault?_eq_some_iff]

/-- A fault of the database is told with the obstacle to which it belongs, and any other error is
passed on. -/
def Tells {α : Type} (obstacle : Obstacle)
    (call : Sampled τ (Except (SampleError (Breakdown ε)) α)) : Fault ε → Prop
  | .database message => call.result = .error (.unsampled (obstacle.reason message))
  | .other error => call.result = .error (.other (.fault (.other error)))

theorem tells_iff {α : Type} {obstacle : Obstacle}
    {call : Sampled τ (Except (SampleError (Breakdown ε)) α)} {fault : Fault ε} :
    Tells obstacle call fault ↔ call.result = .error (Sampler.wrap obstacle fault) := by
  cases fault <;> exact Iff.rfl

end Faults

/-! ## Samples -/

section Samples

variable {ε τ : Type} {collection : Text}

theorem infer_eq_ok_iff {documents : List Document} {schema : Schema} :
    Sampler.infer (ε := ε) documents = .ok schema ↔
      (({} : Survey).addAll documents).schema? = some schema := by
  unfold Sampler.infer
  cases (({} : Survey).addAll documents).schema? <;> simp

theorem infer_eq_error_iff {documents : List Document} {error : SampleError (Breakdown ε)} :
    Sampler.infer documents = .error error ↔
      (({} : Survey).addAll documents).schema? = none ∧ error = .other .outOfRange := by
  unfold Sampler.infer
  cases (({} : Survey).addAll documents).schema? <;> simp [eq_comm]

/-- What a call of a sampler makes of a stream, of which it reads some documents. -/
structure Concludes (stream : Stream ε) (isSpent : Nat → Bool) (obstacle : Obstacle)
    (call : Sampled τ (Except (SampleError (Breakdown ε)) Schema)) (taken : List Document) :
    Prop where
  affords : Affords isSpent stream.documents taken
  read : call.events.count .read = taken.length
  closed : stream.closing ≠ .missing → call.events.count .streamClosed = 1
  unclosed : stream.closing = .missing → call.events.count .streamClosed = 0
  told : ∀ fault, stream.Leaves (Spends isSpent taken) fault → Tells obstacle call fault
  built : (∀ fault, ¬stream.Leaves (Spends isSpent taken) fault) → ∀ schema,
    call.result = .ok schema ↔ (({} : Survey).addAll taken).schema? = some schema
  unbuilt : (∀ fault, ¬stream.Leaves (Spends isSpent taken) fault) →
    (call.result = .error (.other .outOfRange) ↔ (({} : Survey).addAll taken).schema? = none)

/-- What is done before a sample is asked for neither reads nor closes a stream. -/
theorem Concludes.behind {stream : Stream ε} {isSpent : Nat → Bool} {obstacle : Obstacle}
    {call : Sampled τ (Except (SampleError (Breakdown ε)) Schema)} {taken : List Document}
    (concludes : Concludes stream isSpent obstacle call taken) {before : List Event}
    (unread : before.count .read = 0) (unclosed : before.count .streamClosed = 0) :
    Concludes stream isSpent obstacle { call with events := before ++ call.events } taken where
  affords := concludes.affords
  read := by rw [List.count_append, unread, Nat.zero_add, concludes.read]
  closed closes := by rw [List.count_append, unclosed, Nat.zero_add, concludes.closed closes]
  unclosed missing := by rw [List.count_append, unclosed, Nat.zero_add, concludes.unclosed missing]
  told fault left := by
    have told := concludes.told fault left
    rw [tells_iff] at told ⊢
    exact told
  built := concludes.built
  unbuilt := concludes.unbuilt

theorem count_read_connect (sampler : Sampler τ) (server : Server ε) (connection : Text) :
    (sampler.connect server connection).events.count .read = 0 := by
  unfold Sampler.connect
  split
  · rfl
  · split <;> rfl

theorem count_streamClosed_connect (sampler : Sampler τ) (server : Server ε)
    (connection : Text) :
    (sampler.connect server connection).events.count .streamClosed = 0 := by
  unfold Sampler.connect
  split
  · rfl
  · split <;> rfl

/-- What is done to ask for a stream, read some of its documents and close it. -/
def Closing.history (closing : Closing ε) (asked : Event) (taken : List Document) : List Event :=
  [asked] ++ taken.map (fun _ => .read) ++ closing.events

theorem count_read_history (closing : Closing ε) (taken : List Document) {size : Int} :
    (closing.history (.asked collection size) taken).count .read = taken.length := by
  cases closing <;> simp [Closing.history, Closing.events, List.map_const']

theorem count_streamClosed_history (closing : Closing ε) (taken : List Document) {size : Int} :
    (closing.history (.asked collection size) taken).count .streamClosed =
      closing.events.count .streamClosed := by
  simp [Closing.history, List.map_const', List.count_replicate]

end Samples

section Calls

variable {ε τ : Type} [Sub τ] [LT τ] [DecidableLT τ]

/-- The number of documents of a stream that are read has spent the budget of a sampler. -/
def Sampler.exhausts (sampler : Sampler τ) (clock : Nat → τ) (count : Nat) : Bool :=
  sampler.timeBudget < clock (sampler.readings + count) - clock sampler.readings

theorem exhausts_connect (sampler : Sampler τ) (server : Server ε) (connection : Text)
    (clock : Nat → τ) :
    (sampler.connect server connection).sampler.exhausts clock = sampler.exhausts clock := by
  unfold Sampler.connect
  split
  · rfl
  · split <;> rfl

theorem concludes_drain (sampler : Sampler τ) (clock : Nat → τ) {server : Server ε}
    (connection : Text) {collection : Text} {stream : Stream ε}
    (asked : server.aggregate collection = .ok stream) :
    ∃ taken, Concludes stream (sampler.exhausts clock) (.sampling connection collection)
      (sampler.drain clock server connection collection) taken := by
  have affords := affords_takeUntil (sampler.isSpent clock) sampler.readings stream.documents
  have spends := spends_takeUntil_iff (sampler.isSpent clock) sampler.readings stream.documents
  unfold Sampler.drain
  rw [asked]
  dsimp only
  generalize takeUntil (sampler.isSpent clock) (sampler.readings + 1) stream.documents = reading
    at affords spends
  obtain ⟨taken, stopped⟩ := reading
  have faultless
      (spotless : ∀ fault, ¬stream.Leaves (Spends (sampler.exhausts clock) taken) fault) :
      stream.closing.fault? (stream.endingFault? stopped) = none :=
    fault?_eq_none_iff.mpr fun fault left => spotless fault (left.congr spends.symm)
  refine ⟨taken, affords, count_read_history stream.closing taken, ?_, ?_, ?_, ?_, ?_⟩
  · intro closes
    refine (count_streamClosed_history stream.closing taken).trans ?_
    cases closing : stream.closing with
    | missing => exact absurd closing closes
    | succeeds => rfl
    | fails fault => rfl
  · intro missing
    refine (count_streamClosed_history stream.closing taken).trans ?_
    rw [missing]
    rfl
  · intro fault left
    have raised := fault?_eq_some_iff.mpr (left.congr spends)
    rw [tells_iff]
    dsimp only
    rw [raised]
  · intro spotless schema
    dsimp only
    rw [faultless spotless, infer_eq_ok_iff]
  · intro spotless
    dsimp only
    rw [faultless spotless, infer_eq_error_iff, and_iff_left rfl]

variable {sampler : Sampler τ} {server : Server ε} {connection collection : Text}

theorem sample_of_found (clock : Nat → τ) (known : sampler.hasConnection connection = true)
    (connected : (sampler.connect server connection).result = .ok ())
    (found : Sampler.findCollection server connection collection = .ok ()) :
    sampler.sample clock server connection collection =
      let call :=
        (sampler.connect server connection).sampler.drain clock server connection collection
      { call with events := (sampler.connect server connection).events ++ call.events } := by
  rw [Sampler.sample, if_pos known]
  dsimp only
  rw [connected, found]

/-- A sampler that has found a collection reads of its stream what the budget affords, and closes
it once if it can be closed. If a fault is left, of asking for the sample, of reading or of closing,
then it is told and there is no schema. Else the sampler gives the schema of the documents that were
read, and says that a number is out of range exactly if they have none: if one of their paths lists
an integer beyond the range of doubles. -/
theorem concludes_sample (clock : Nat → τ) (known : sampler.hasConnection connection = true)
    (connected : (sampler.connect server connection).result = .ok ())
    (found : Sampler.findCollection server connection collection = .ok ()) :
    (∀ fault, server.aggregate collection = .error fault →
      Tells (.sampling connection collection)
          (sampler.sample clock server connection collection) fault ∧
        (sampler.sample clock server connection collection).events.count .streamClosed = 0) ∧
    ∀ stream, server.aggregate collection = .ok stream →
      ∃ taken, Concludes stream (sampler.exhausts clock) (.sampling connection collection)
          (sampler.sample clock server connection collection) taken ∧
        (Textual (sighted taken) → ((({} : Survey).addAll taken).schema? = none ↔
          ∃ path, path ≠ [] ∧ ListsBeyond taken path)) := by
  have unread := count_read_connect sampler server connection
  have unclosed := count_streamClosed_connect sampler server connection
  rw [sample_of_found clock known connected found]
  constructor
  · intro fault refused
    dsimp only [Sampler.drain]
    rw [tells_iff, refused]
    refine ⟨rfl, ?_⟩
    rw [List.count_append, unclosed]
    rfl
  · intro stream asked
    obtain ⟨taken, concludes⟩ :=
      concludes_drain (sampler.connect server connection).sampler clock connection asked
    rw [exhausts_connect] at concludes
    exact ⟨taken, concludes.behind unread unclosed, Survey.schema?_eq_none_iff⟩

end Calls

/-- A sampler whose budget is one unit of time. -/
def hasty : Sampler Nat where
  connections := [['c']]
  sampleSize := 3
  timeBudget := 1

/-- Three documents with a fault behind them. -/
def brittle : Stream Unit where
  documents := List.replicate 3 [(.text ['a'], .null)]
  fault? := some (.database ['x'])

/-- The fault is not reached: two documents have a schema, and the stream is closed. -/
theorem concludes_sample_brittle :
    let call := hasty.sample id { aggregate := fun _ => .ok brittle } ['c'] ['u']
    ∃ schema, call.result = .ok schema ∧ schema.sampled = 2 ∧
      call.events.count .streamClosed = 1 := by
  intro call
  have known : hasty.hasConnection ['c'] = true := by decide
  have connected :
      (hasty.connect { aggregate := fun _ => .ok brittle } ['c']).result = .ok () := rfl
  have found : Sampler.findCollection { aggregate := fun _ => .ok brittle } ['c'] ['u'] =
      .ok () := rfl
  obtain ⟨taken, concludes, -⟩ := (concludes_sample id known connected found).2 brittle rfl
  have third : ¬2 < taken.length := fun longer =>
    absurd (concludes.affords.within 2 (by decide) longer) (by decide)
  have spends : Spends (hasty.exhausts id) taken := by
    refine concludes.affords.whole.resolve_left ?_
    rintro rfl
    exact third (by decide)
  have second : 1 < taken.length := by simpa [Sampler.exhausts, hasty] using spends.2
  have two : taken = List.replicate 2 [(.text ['a'], .null)] := by
    have part := List.prefix_iff_eq_take.mp concludes.affords.inside
    rw [show taken.length = 2 by omega] at part
    exact part
  have spotless (fault : Fault Unit) :
      ¬brittle.Leaves (Spends (hasty.exhausts id) taken) fault := by
    rintro (fails | ⟨reached, -, -⟩)
    · contradiction
    · exact reached spends
  have finishes : (({} : Survey).addAll taken).schema?.isSome := by
    rw [two]
    rfl
  obtain ⟨schema, built⟩ := Option.isSome_iff_exists.mp finishes
  refine ⟨schema, (concludes.built spotless schema).mpr built, ?_, concludes.closed nofun⟩
  rw [Survey.sampled_of_schema? built, Survey.count_addAll, two]
  rfl

/-- A stream of one document. -/
def single (document : Document) : Stream Unit where
  documents := [document]

theorem not_leaves_single (document : Document) (stopped : Prop) (fault : Fault Unit) :
    ¬(single document).Leaves stopped fault := by
  rintro (fails | ⟨-, raised, -⟩) <;> contradiction

theorem result_sample_single (document : Document) :
    (hasty.sample id { aggregate := fun _ => .ok (single document) } ['c'] ['u']).result =
      Sampler.infer [document] :=
  rfl

/-- A document with an integer beyond the range of doubles. -/
def vast : Document := [(.text ['a'], .number (.integer (10 ^ 400)))]

/-- No fault is left, and yet neither a schema nor an error of the sampler is given. -/
theorem outOfRange_sample_vast :
    let call := hasty.sample id { aggregate := fun _ => .ok (single vast) } ['c'] ['u']
    (∀ stopped fault, ¬(single vast).Leaves stopped fault) ∧
      (∀ schema, call.result ≠ .ok schema) ∧ call.result = .error (.other .outOfRange) := by
  intro call
  have unbuilt : (({} : Survey).addAll [vast]).schema?.isNone := by decide +kernel
  have result : call.result = .error (.other .outOfRange) := by
    rw [result_sample_single, infer_eq_error_iff]
    exact ⟨Option.isNone_iff_eq_none.mp unbuilt, rfl⟩
  refine ⟨not_leaves_single vast, fun schema => ?_, result⟩
  rw [result]
  exact nofun

end Typeahead.Sampling
