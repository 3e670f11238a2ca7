import HttpSuite.Suite.Basic

/-!
# Sessions

A session has at most one suite. It is made when it is first needed, from the usual
settings with the labels of the surroundings, and everything that is asked for is
asked of it. What fails leaves it as it was.
-/

namespace HttpSuite

/-- What a session's suite is made of when it is first needed. -/
structure Surroundings where
  /-- What templates draw from. -/
  chance : Chance
  /-- Labels of cases that are run, if they are given. -/
  focus : Option String := none
  /-- Labels of cases that are left out, if they are given. -/
  skip : Option String := none

/-- The suite of a session, once it is there. -/
abbrev Session := Option Suite

namespace Session

/-- The settings of a suite that is made when it is first needed. -/
def usualSettings (around : Surroundings) : Settings :=
  Settings.withLabels {} around.focus around.skip

/-- The suite of a session, made if it is not there. -/
def suite (session : Session) (around : Surroundings) (engines : Engines := .builtin) :
    Except SuiteError Suite :=
  match session with
  | some suite => .ok suite
  | none => Suite.create around.chance (usualSettings around) engines

/-- Changes the suite of a session. If that fails the suite stays as it was, but it is
there from then on. -/
def update (session : Session) (around : Surroundings) (f : Suite → Except SuiteError Suite)
    (engines : Engines := .builtin) : Except SuiteError Unit × Session :=
  match session.suite around engines with
  | .error e => (.error e, none)
  | .ok suite =>
    match f suite with
    | .error e => (.error e, some suite)
    | .ok changed => (.ok (), some changed)

/-- Replaces the suite by a new one, unless the settings make no sense. -/
def configure (session : Session) (chance : Chance) (settings : Settings)
    (engines : Engines := .builtin) : Except SuiteError Unit × Session :=
  match Suite.create chance settings engines with
  | .error e => (.error e, session)
  | .ok suite => (.ok (), some suite)

/-- Drops the suite. -/
def reset (_ : Session) : Session := none

/-- Runs the suite. -/
def run (session : Session) (around : Surroundings) (files : FileTree) (service : Service)
    (journal : Journal) (engines : Engines := .builtin) :
    Except SuiteError Report × Session × Journal :=
  match session.suite around engines with
  | .error e => (.error e, none, journal)
  | .ok suite =>
    let (result, journal) := suite.run files service journal
    (result, some suite, journal)

end Session

end HttpSuite
