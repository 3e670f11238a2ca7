import HttpSuite.RoundTrip.Basic

/-!
# What has to be cleared up

An activation leaves behind which cleaners are to be called, with their arguments, and
the template that they are given.
-/

namespace HttpSuite

/-- A cleaner that is to be called. -/
structure CleanerCall where
  /-- Its name. -/
  name : String
  /-- Whether it is called after every case. -/
  forEach : Bool
  /-- Its arguments. -/
  args : OrderedMap String
  deriving DecidableEq

/-- What has to be cleared up. -/
structure Teardown where
  /-- The template of the activation. -/
  template : RoundTrip
  /-- The cleaners. -/
  calls : List CleanerCall
  deriving DecidableEq

end HttpSuite
