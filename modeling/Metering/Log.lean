/-!
This module contains log lines and their levels.
-/

namespace Metering

inductive Level where
  | trace
  | debug
  | info
  | warn
  | error
  deriving DecidableEq

namespace Level

def all : List Level :=
  [trace, debug, info, warn, error]

theorem mem_all (l : Level) : l ∈ all := by
  cases l <;> decide

def name : Level → String
  | trace => "trace"
  | debug => "debug"
  | info => "info"
  | warn => "warn"
  | error => "error"

def label : Level → String
  | trace => "TRACE"
  | debug => "DEBUG"
  | info => "INFO"
  | warn => "WARN"
  | error => "ERROR"

def severity : Level → Nat
  | trace => 0
  | debug => 1
  | info => 2
  | warn => 3
  | error => 4

def ofName? (s : String) : Option Level :=
  all.find? (·.name = s)

theorem ofName?_name (l : Level) : ofName? l.name = some l := by
  cases l <;> decide

theorem ofName?_eq_some_iff {s : String} {l : Level} : ofName? s = some l ↔ s = l.name := by
  constructor
  . intro h
    have hname : l.name = s := by simpa using List.find?_some h
    exact hname.symm
  . rintro rfl
    apply ofName?_name

end Level

structure Line where
  level : Level
  text : String
  deriving DecidableEq

namespace Line

def render (l : Line) : String :=
  l.level.label ++ " " ++ l.text

def atLeast (level : Level) (ls : List Line) : List Line :=
  ls.filter fun l => level.severity ≤ l.level.severity

end Line

end Metering
