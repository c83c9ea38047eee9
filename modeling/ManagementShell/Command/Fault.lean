import ManagementShell.Text.Numeral

/-
This file lists the faults of lines that are no commands, with the usage that each is shown with.
-/

namespace ManagementShell
open Text

/-- The groups of commands that share a usage text. -/
inductive Usage where
  | batch
  | context
  | count
  | find
  | findAll
  | jump
  | conditional
  | log
  | print
  | report
  | set
  | sleep
  | unset
  | poll
  deriving DecidableEq, Repr

def Usage.text : Usage → Text
  | .batch => "Batch Filename.win"
  | .context => "Context Name=Value Command [args]  |  //Name=Value Command"
  | .count => "Count $var  |  +$var"
  | .find => "Find Name[=Value] [$var [instance]]  |  /Name[=Value]  |  /$var=Name"
  | .findAll => "Findall Name $var  |  /*$var=Name"
  | .jump => "Goto line|Label|file[:line|Label]  |  >target  |  >>target"
  | .conditional => "If Name=Value|Name!=Value Command  |  ?cond Command"
  | .log => "Log [filename [mode]]"
  | .print => "Print text  |  <text"
  | .report => "Report Field,Field,* [where Name=Value]  |  <<fields [//Name=Value]"
  | .set => "Set [$var value | /a $var expr]  |  $var=value  |  $var:=expr  |  $"
  | .sleep => "Sleep seconds"
  | .unset => "Unset $var  |  ~$var"
  | .poll => "Until Name=Value [interval timeout] Method [args]  |  \x7bcond Method [args]"

inductive LineFault where
  | openQuote (text : Text)
  | wrongCount (usage : Usage) (word : Text) (least : Nat) (most : Option Nat) (given : Nat)
  | contextAlone
  | operatorAlone (usage : Usage) (operator : Text)
  | wrapperAlone (usage : Usage) (operator : Text)
  | findAssignment (usage : Usage) (assignment : Text)
  | findForm
  | setForm (word : Text)
  | setSpaces
  | setValue
  | setExpression
  | unsetForm (word : Text)
  | reportOperator
  | reportKeyword
  | printText
  | noMethod
  | secondCondition
  | unknownOperator (operator : Text)
  | tooDeep
  deriving DecidableEq, Repr

namespace LineFault

/-- The number of arguments that a command takes. -/
def countText (least : Nat) : Option Nat → Text
  | none => ofNat least ++ " or more"
  | some most => if least = most then ofNat least else ofNat least ++ " to " ++ ofNat most

def summary : LineFault → Text
  | .openQuote text => "Unable to split '" ++ text ++ "': missing closing quote"
  | .wrongCount _ word least most given =>
      word ++ " takes " ++ countText least most ++ " arguments, " ++ ofNat given ++ " given"
  | .contextAlone => "Context requires a command to run"
  | .operatorAlone _ operator => "'" ++ operator ++ "' needs a command to run"
  | .wrapperAlone _ operator => "'" ++ operator ++ "' needs a following operator"
  | .findAssignment _ assignment => "Invalid find '/" ++ assignment ++ "'"
  | .findForm => "Incorrect find syntax"
  | .setForm word => "Set syntax error in '" ++ word ++ "'"
  | .setSpaces => "Set syntax error, quote values with spaces"
  | .setValue => "Set requires a name and a value"
  | .setExpression => "Set /a requires a name and an expression"
  | .unsetForm word => "Invalid unset '" ++ word ++ "'"
  | .reportOperator => "Report syntax error"
  | .reportKeyword => "Invalid syntax for report"
  | .printText => "Print requires text"
  | .noMethod => "Missing method name"
  | .secondCondition => "Only one poll condition per call"
  | .unknownOperator operator => "Unknown operator '" ++ operator ++ "'"
  | .tooDeep => "Commands are nested too deeply"

def usage : LineFault → Usage
  | .openQuote _ | .printText | .noMethod | .unknownOperator _ | .tooDeep => .print
  | .wrongCount usage _ _ _ _ => usage
  | .contextAlone => .context
  | .operatorAlone usage _ | .wrapperAlone usage _ | .findAssignment usage _ => usage
  | .findForm => .findAll
  | .setForm _ | .setSpaces | .setValue | .setExpression => .set
  | .unsetForm _ => .unset
  | .reportOperator | .reportKeyword => .report
  | .secondCondition => .poll

def message (fault : LineFault) : Text := fault.summary ++ "\n  usage: " ++ fault.usage.text

end LineFault

end ManagementShell
