import Typeahead.Sampling.Sampler

/-!
# Runs of a sampler

A sampler is called again and again, to sample a collection or to close its clients. The server of a
collection may behave in another way each time. A run makes calls one after the other under one
clock, and collects what they give and what they do.
-/

namespace Typeahead.Sampling

/-- A call of a sampler. -/
inductive Call (ε : Type) where
  /-- Sample a collection whose server behaves in some way. -/
  | sample (server : Server ε) (connection collection : Text)
  | close

namespace Sampler

variable {ε τ : Type} [Sub τ] [LT τ] [DecidableLT τ]

/-- Make one call. Closing gives nothing. -/
def call (sampler : Sampler τ) (clock : Nat → τ) :
    Call ε → Sampled τ (Option (Except (SampleError (Breakdown ε)) Schema))
  | .sample server connection collection =>
      let sampled := sampler.sample clock server connection collection
      { sampled with result := some sampled.result }
  | .close => { sampler.close with result := none }

/-- Make calls one after the other. -/
def run (sampler : Sampler τ) (clock : Nat → τ) :
    List (Call ε) → Sampled τ (List (Option (Except (SampleError (Breakdown ε)) Schema)))
  | [] => { result := [], events := [], sampler }
  | first :: rest =>
      let called := sampler.call clock first
      let others := called.sampler.run clock rest
      { result := called.result :: others.result
        events := called.events ++ others.events
        sampler := others.sampler }

end Sampler

end Typeahead.Sampling
