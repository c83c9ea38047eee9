import ManagementShell.Failure
import ManagementShell.Proofs.Masking

/-
This file shows that the message of a failure can be masked where the texts that it quotes can be.
-/

namespace ManagementShell
open Text Masking

variable {c : Char} {secret : Text}

/-- A quoted text between fixed ones. -/
theorem enclosed_whole (fresh : Fresh c) {before after : List Char} {text : Text}
    (whole : Whole c secret text) (first : areFixed before = true) (last : areFixed after = true) :
    Whole c secret ((String.ofList before).toList ++ text ++ (String.ofList after).toList) :=
  ((whole_of_lacks (fresh.literal first)).append whole).append
    (whole_of_lacks (fresh.literal last))

/-- The property holds of each text that the fault quotes. -/
def ResolutionFault.Quotes (holds : Text → Prop) : ResolutionFault → Prop
  | .noCandidate filter => holds filter
  | .noResource _ => True
  | .badReference reference | .nestedReference reference => holds reference
  | .noResponse className => holds className

theorem ResolutionFault.message_whole (fresh : Fresh c) {fault : ResolutionFault}
    (quotes : fault.Quotes (Whole c secret)) : Whole c secret fault.message := by
  cases fault with
  | noCandidate filter =>
      exact enclosed_whole fresh quotes (by decide) (by decide)
  | noResource position =>
      exact (whole_of_lacks (fresh.literal (by decide))).append
        (whole_of_lacks (ofNat_lacks fresh position))
  | badReference reference =>
      exact enclosed_whole fresh quotes (by decide) (by decide)
  | noResponse className =>
      exact enclosed_whole fresh quotes (by decide) (by decide)
  | nestedReference reference =>
      exact enclosed_whole fresh quotes (by decide) (by decide)

/-- The property holds of each text that the fault quotes. -/
def ScriptFault.Quotes (holds : Text → Prop) : ScriptFault → Prop
  | .badName name => holds name
  | .missingFile path _ => holds path
  | .missingLabel label script => holds label ∧ holds script
  | .badSleep text => holds text
  | .badFind look | .contextNotFound look => holds look
  | .badLogMode mode => holds mode
  | _ => True

theorem FileFault.message_lacks (fresh : Fresh c) (fault : FileFault) : c ∉ fault.message := by
  cases fault <;> exact fresh.literal rfl

theorem ScriptFault.message_whole (fresh : Fresh c) {fault : ScriptFault}
    (quotes : fault.Quotes (Whole c secret)) : Whole c secret fault.message := by
  have fixed {characters : List Char} (known : areFixed characters = true) :
      Whole c secret (String.ofList characters).toList := whole_of_lacks (fresh.literal known)
  cases fault with
  | badName name => exact enclosed_whole fresh quotes (by decide) (by decide)
  | missingFile path fault =>
      have reason : Whole c secret fault.message :=
        whole_of_lacks (FileFault.message_lacks fresh fault)
      exact ((enclosed_whole fresh quotes (by decide) (by decide)).append
        reason).append (fixed (by decide))
  | badLineNumber number =>
      exact (fixed (by decide)).append (whole_of_lacks (ofInt_lacks fresh number))
  | missingLabel label script =>
      exact (enclosed_whole fresh quotes.1 (by decide) (by decide)).append quotes.2
  | badSleep text => exact enclosed_whole fresh quotes (by decide) (by decide)
  | badFind look => exact enclosed_whole fresh quotes (by decide) (by decide)
  | contextNotFound look => exact enclosed_whole fresh quotes (by decide) (by decide)
  | badLogMode mode => exact enclosed_whole fresh quotes (by decide) (by decide)
  | _ => exact fixed rfl

/-- The property holds of each text that the failure quotes. -/
def Failure.Quotes (holds : Text → Prop) : Failure → Prop
  | .unknownMethod method => holds method
  | .missingParameter method parameter => holds method ∧ holds parameter
  | .malformedCondition condition => holds condition
  | .unreadableReference path parameter => holds path ∧ holds parameter
  | .unresolved method fault => holds method ∧ fault.Quotes holds
  | .protectedVariable name | .readOnly name => holds name
  | .transport reason => holds reason
  | .timeout _ | .malformedResponse => True
  | .line fault => holds fault.message
  | .arithmetic expression fault => holds expression ∧ holds fault.message
  | .script fault => fault.Quotes holds
  | .file _ => True

/-- Besides the texts that it quotes, the message of a failure is fixed. -/
theorem Failure.message_whole (fresh : Fresh c) {failure : Failure}
    (quotes : failure.Quotes (Whole c secret)) : Whole c secret failure.message := by
  have fixed {characters : List Char} (known : areFixed characters = true) :
      Whole c secret (String.ofList characters).toList := whole_of_lacks (fresh.literal known)
  cases failure with
  | unknownMethod method => exact enclosed_whole fresh quotes (by decide) (by decide)
  | missingParameter method parameter =>
      have first : Whole c secret
          (("Required parameter '" : Text) ++ parameter ++ "' missing for method '") :=
        enclosed_whole fresh quotes.2 (by decide) (by decide)
      exact (first.append quotes.1).append (fixed (by decide))
  | malformedCondition condition =>
      exact enclosed_whole fresh quotes (by decide) (by decide)
  | unreadableReference path parameter =>
      exact ((enclosed_whole fresh quotes.1 (by decide) (by decide)).append
        quotes.2).append (fixed (by decide))
  | unresolved method fault =>
      exact (enclosed_whole fresh quotes.1 (by decide) (by decide)).append
        (ResolutionFault.message_whole fresh quotes.2)
  | protectedVariable name => exact (fixed (by decide)).append quotes
  | readOnly name => exact (fixed (by decide)).append quotes
  | transport reason => exact (fixed (by decide)).append quotes
  | timeout seconds =>
      exact ((fixed (by decide)).append (whole_of_lacks (ofNat_lacks fresh seconds))).append
        (fixed (by decide))
  | malformedResponse => exact fixed (by decide)
  | line fault => exact quotes
  | arithmetic expression fault =>
      exact (enclosed_whole fresh quotes.1 (by decide) (by decide)).append quotes.2
  | script fault => exact ScriptFault.message_whole fresh quotes
  | file fault => exact whole_of_lacks (FileFault.message_lacks fresh fault)

theorem Failure.Quotes.weaken {failure : Failure} {holds weaker : Text → Prop}
    (quotes : failure.Quotes holds) (implies : ∀ text, holds text → weaker text) :
    failure.Quotes weaker := by
  cases failure with
  | missingParameter method parameter => exact quotes.imp (implies _) (implies _)
  | unreadableReference path parameter => exact quotes.imp (implies _) (implies _)
  | arithmetic expression fault => exact quotes.imp (implies _) (implies _)
  | unresolved method fault =>
      refine quotes.imp (implies _) fun inner => ?_
      cases fault <;> first | exact implies _ inner | trivial
  | script fault =>
      cases fault <;> first | exact implies _ quotes | exact quotes.imp (implies _) (implies _) | trivial
  | timeout seconds => trivial
  | malformedResponse => trivial
  | file fault => trivial
  | _ => exact implies _ quotes

theorem Failure.message_lacks (fresh : Fresh c) {failure : Failure} (quotes : failure.Quotes (c ∉ ·)) :
    c ∉ failure.message :=
  have whole : Whole c [] failure.message :=
    failure.message_whole fresh (quotes.weaken fun _ => whole_of_lacks)
  whole.lacks List.not_mem_nil

end ManagementShell
