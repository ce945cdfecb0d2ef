import Typeahead.Text.Quoted

/-!
# Why there is no sample

A collection may have no sample because its connection is not known, because its database cannot
be sampled, or because of any other error, which is left as it is.
-/

namespace Typeahead.Sampling

/-- Why there is no sample of a collection. -/
inductive SampleError (ε : Type) where
  | unknownConnection (name : Text)
  | unsampled (reason : Text)
  | other (error : ε)
  deriving DecidableEq, Repr

/-- What is told about a connection that is not known. -/
def unknownConnectionMessage (name : Text) : Text :=
  "Invalid connection name: ".toList ++ name.quoted

/-- What the database has kept a sampler from. -/
inductive Obstacle where
  | opening (connection : Text)
  | findingDatabase (connection : Text)
  | sampling (connection collection : Text)
  deriving DecidableEq, Repr

/-- What is told about an obstacle, with what the database tells of it. -/
def Obstacle.reason (message : Text) : Obstacle → Text
  | opening connection =>
      "Connection '".toList ++ connection ++ "' could not be opened: ".toList ++ message
  | findingDatabase connection =>
      "Connection '".toList ++ connection ++ "' has no default database: ".toList ++ message
  | sampling connection collection =>
      "Sampling '".toList ++ collection ++ "' on '".toList ++ connection ++ "' failed: ".toList ++
        message

end Typeahead.Sampling
