import ManagementShell.Text.Numeral

/-
This file defines the settings that a session starts with.
-/

namespace ManagementShell

/-- Nothing is echoed at the first step, calls at the second and lines at the third. -/
def quietLevel : Int := 0
def callLevel : Int := 1
def fullLevel : Int := 2

/-- These are the first values of the session's variables. -/
structure Defaults where
  login : Text := "root"
  password : Text := "calvin"
  port : Nat := 443
  device : Text := "idrac"
  pollInterval : Nat := 30
  pollTimeout : Nat := 900
  verbosity : Int := fullLevel
  format : Text := "normal"
  timer : Bool := false
  deriving DecidableEq, Repr

/-- The client program and the flags that every call ends with. -/
structure ClientSettings where
  program : Text := "wsman"
  flags : List Text := ["-V", "-v", "-c", "dummy.cert", "-j", "utf-8", "-y", "basic"]
  deriving DecidableEq, Repr

structure Configuration where
  defaults : Defaults := {}
  client : ClientSettings := {}
  catalogPath : Text := "catalog"
  deriving DecidableEq, Repr

/-- The values of the environment variables that override a configuration. -/
structure Environment where
  login : Option Text := none
  password : Option Text := none
  timer : Option Text := none
  pollInterval : Option Text := none
  pollTimeout : Option Text := none
  verbosity : Option Text := none

/-- The greatest number that fits into 64 bits. -/
def largestNatural : Nat := 0xffffffffffffffff

/-- A number that cannot be read is ignored. -/
def Defaults.override (defaults : Defaults) (environment : Environment) : Defaults :=
  { defaults with
    login := environment.login.getD defaults.login
    password := environment.password.getD defaults.password
    timer := match environment.timer with
      | some value => value == "True"
      | none => defaults.timer
    pollInterval := (environment.pollInterval.bind (Text.unsigned? largestNatural)).getD
      defaults.pollInterval
    pollTimeout := (environment.pollTimeout.bind (Text.unsigned? largestNatural)).getD
      defaults.pollTimeout
    verbosity := (environment.verbosity.bind Text.integer?).getD defaults.verbosity }

def Configuration.override (configuration : Configuration) (environment : Environment) :
    Configuration :=
  { configuration with defaults := configuration.defaults.override environment }

end ManagementShell
