import DemandFlow.Config.File
import DemandFlow.Proofs.Yaml.Settings

/-!
The text of a configuration says what the configuration is. Read again, it gives the
configuration, unless the settings have a fault, and then that fault.
-/

set_option autoImplicit false

namespace DemandFlow

namespace Yaml

theorem digit?_digitChar {digit : Nat} (small : digit < 10) :
    digit? (Nat.digitChar digit) = some digit :=
  (by decide : ∀ digit < 10, digit? (Nat.digitChar digit) = some digit) digit small

private theorem numeral?_snoc {chars : List Char} {value digit : Nat}
    (before : numeral? 10 chars = some value) (small : digit < 10) :
    numeral? 10 (chars ++ [Nat.digitChar digit]) = some (value * 10 + digit) := by
  unfold numeral? at before ⊢
  split at before
  next => cases before
  next found =>
    rw [if_neg (by simp), List.foldl_append, before]
    simp [digit?_digitChar small, small]

private theorem numeral?_toDigits (number : Nat) :
    numeral? 10 (Nat.toDigits 10 number) = some number := by
  induction number using Nat.strongRecOn with
  | ind number inductionHypothesis =>
      by_cases small : number < 10
      · rw [Nat.toDigits_of_lt_base small]
        simp [numeral?, digit?_digitChar small, small]
      · have before := inductionHypothesis (number / 10) (by omega)
        rw [Nat.toDigits_of_base_le (by decide) (Nat.le_of_not_lt small),
          numeral?_snoc before (Nat.mod_lt _ (by decide)), Nat.div_add_mod']

theorem toDigits_eq_cons (number : Nat) : ∃ char rest, Nat.toDigits 10 number = char :: rest ∧
    char.isDigit = true ∧ (number ≠ 0 → char ≠ '0') := by
  induction number using Nat.strongRecOn with
  | ind number inductionHypothesis =>
      by_cases small : number < 10
      · refine ⟨Nat.digitChar number, [], Nat.toDigits_of_lt_base small, ?_⟩
        exact (by decide : ∀ digit < 10, (Nat.digitChar digit).isDigit = true ∧
          (digit ≠ 0 → Nat.digitChar digit ≠ '0')) number small
      · rcases inductionHypothesis (number / 10) (by omega) with
          ⟨char, rest, digits, isDigit, leads⟩
        refine ⟨char, rest ++ [Nat.digitChar (number % 10)], ?_, isDigit, fun _ => leads (by omega)⟩
        rw [Nat.toDigits_of_base_le (by decide) (Nat.le_of_not_lt small), digits, List.cons_append]

theorem toList_toString (number : Nat) : (toString number).toList = Nat.toDigits 10 number := by
  rw [Nat.toString_eq_ofList_toDigits, String.toList_ofList]

theorem countOfText?_toString {number : Nat} (fits : number ≤ maxCount) :
    countOfText? (toString number) = some number := by
  have read : count? 10 (Nat.toDigits 10 number) = some number := by
    rw [count?, numeral?_toDigits, Option.filter_some, if_pos (decide_eq_true fits)]
  by_cases zero : number = 0
  · subst zero
    decide
  · rcases toDigits_eq_cons number with ⟨char, rest, digits, isDigit, leads⟩
    have unsigned : char ≠ '+' := by
      rintro rfl
      cases isDigit
    rw [digits] at read
    unfold countOfText?
    rw [toList_toString, digits]
    simp [unsigned, leads zero, read]

theorem isWord_toString (number : Nat) : isWord (toString number).toList = true := by
  rw [toList_toString]
  rcases toDigits_eq_cons number with ⟨char, rest, digits, _, _⟩
  have wordChars : (Nat.toDigits 10 number).all isWordChar = true := by
    rw [List.all_eq_true]
    intro char member
    simp [isWordChar, Nat.isDigit_of_mem_toDigits (by decide) (by decide) member]
  rw [isWord, wordChars, digits]
  rfl

/-- A text that does not begin with a digit is not that of a count. -/
theorem toString_ne (number : Nat) {text : String}
    (other : text.toList.head?.any Char.isDigit = false) : toString number ≠ text := by
  intro same
  rcases toDigits_eq_cons number with ⟨char, rest, digits, isDigit, _⟩
  rw [← same, toList_toString, digits] at other
  change char.isDigit = false at other
  rw [isDigit] at other
  cases other

private theorem optionalCount?_some {number : Nat} (fits : number ≤ maxCount) :
    (wordNode (toString number)).optionalCount? = some (some number) := by
  have written : ¬ (toString number = "" ∨ isNullText (toString number) = true) := by
    simp only [isNullText, decide_eq_true_eq, not_or]
    refine ⟨?_, ?_, ?_, ?_, ?_⟩ <;> exact toString_ne number (by decide)
  change (if toString number = "" ∨ isNullText (toString number) = true then some none
    else (countOfText? (toString number)).map some) = _
  rw [if_neg written, countOfText?_toString fits, Option.map_some]

end Yaml

namespace Config

open Yaml

def passesText (most : Option Nat) : String :=
  (most.map toString).getD "null"

def settings (config : Config) : List (String × String) :=
  [("audit_rates", boolText config.auditRates),
    ("channel", config.channel.text),
    ("channel_capacity", toString config.channelCapacity),
    ("max_passes", passesText config.maxPasses),
    ("check_pending_messages", boolText config.checkPendingMessages)]

private theorem toYaml_eq (config : Config) : config.toYaml = settingsText config.settings := by
  have audit : "audit_rates: " = "audit_rates" ++ ": " := rfl
  have channel : "channel: " = "channel" ++ ": " := rfl
  have capacity : "channel_capacity: " = "channel_capacity" ++ ": " := rfl
  have passes : "max_passes: " = "max_passes" ++ ": " := rfl
  have pending : "check_pending_messages: " = "check_pending_messages" ++ ": " := rfl
  unfold toYaml settings passesText
  rw [audit, channel, capacity, passes, pending]
  simp only [settingsText, String.append_assoc, String.append_empty]

private theorem isWord_boolText (value : Bool) : isWord (boolText value).toList = true := by
  cases value <;> decide

private theorem isWord_text (kind : ChannelKind) : isWord kind.text.toList = true := by
  cases kind <;> decide

private theorem isWord_passesText (most : Option Nat) : isWord (passesText most).toList = true := by
  cases most with
  | none => decide
  | some number => exact isWord_toString number

private theorem isSetting_settings (config : Config) : config.settings.all isSetting = true := by
  have names : ∀ name ∈ ["audit_rates", "channel", "channel_capacity", "max_passes",
      "check_pending_messages"], isWord name.toList = true ∧ name.toList.length ≤ 1024 := by
    decide
  simp only [List.forall_mem_cons] at names
  simp only [settings, isSetting, List.all_cons, List.all_nil, names, isWord_boolText, isWord_text,
    isWord_passesText, isWord_toString]
  rfl

private theorem bool?_boolText (value : Bool) : (wordNode (boolText value)).bool? = some value := by
  cases value <;> decide

private theorem ofText?_text (kind : ChannelKind) :
    (wordNode kind.text).name?.bind ChannelKind.ofText? = some kind := by
  cases kind <;> decide

private theorem optionalCount?_passesText {most : Option Nat}
    (fits : ∀ number, most = some number → number ≤ maxCount) :
    (wordNode (passesText most)).optionalCount? = some most := by
  cases most with
  | none => decide
  | some number => exact optionalCount?_some (fits number rfl)

private theorem ofDocument?_settings {config : Config}
    (capacity : config.channelCapacity ≤ maxCount)
    (passes : ∀ number, config.maxPasses = some number → number ≤ maxCount) :
    ofDocument? (some (.map {} (config.settings.map settingNode))) = some config := by
  have counted : (wordNode config.channelCapacity.repr).count? = some config.channelCapacity :=
    countOfText?_toString capacity
  have added (root : Node) (mentioned : Mentioned) (setting : String × String) :
      mentioned.add root (settingNode setting) =
        mentioned.addNamed setting.1 (wordNode setting.2) := rfl
  simp [ofDocument?, settings, added, Mentioned.addNamed, Mentioned.once, bool?_boolText,
    ofText?_text, counted, optionalCount?_passesText passes, Mentioned.config]

/-- A configuration whose numbers are counts is read back from its text if its settings are
valid, and otherwise reading gives the error of validating it. -/
theorem ofYaml_toYaml (config : Config) (capacity : config.channelCapacity ≤ maxCount)
    (passes : ∀ number, config.maxPasses = some number → number ≤ maxCount) :
    ofYaml config.toYaml = config.validate.map (fun _ => config) := by
  have parsed : parse config.toYaml = some (some (.map {} (config.settings.map settingNode))) := by
    rw [toYaml_eq]
    exact parse_settingsText config.isSetting_settings
  unfold ofYaml validate
  rw [parsed, Option.bind_some, ofDocument?_settings capacity passes]
  dsimp only
  cases config.fault? with
  | none => rfl
  | some fault => rfl

/-- The most that a machine can count. -/
theorem ofYaml_toYaml_largest :
    let config : Config :=
      { auditRates := true
        channel := .debug
        channelCapacity := maxCount
        maxPasses := some maxCount
        checkPendingMessages := false }
    let empty : Config := { channelCapacity := 0, maxPasses := none }
    ofYaml config.toYaml = .ok config ∧
      ofYaml empty.toYaml = .error (.configuration .zeroCapacity) := by
  intro config empty
  have kept := ofYaml_toYaml config (Nat.le_refl _) (by rintro _ ⟨⟩; exact Nat.le_refl _)
  have refused := ofYaml_toYaml empty (Nat.zero_le _) (by rintro _ ⟨⟩)
  exact ⟨kept, refused⟩

end Config

end DemandFlow
