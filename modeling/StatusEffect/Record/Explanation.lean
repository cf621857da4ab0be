import StatusEffect.Record.Basic
import StatusEffect.Text.Join

/-
  The explanation of a record in English.

  An explanation is one sentence on the core clauses, one on
  the flags and one on the other attributes, each of the
  last two only if it has something to say. A chain target
  is explained in parentheses after its chain effect.

  Key definitions include:
    * `Effect.coreSentence`
    * `Effect.attributePhrases`
    * `Effect.explanation`
    * `Record.explanation`
-/

------------------------------------------------------------
-- Phrases
------------------------------------------------------------

namespace StatusEffect

open Text

namespace Target

/- Who a sentence is about. -/
def phrase : Target → String
  | .player => "Player"
  | .enemy => "Enemy"
  | .allAllies => "All allies"
  | .allEnemies => "All enemies"
  | .everyone => "Everyone"

end Target

namespace Change

/- What happens to the subject. -/
def phrase : Change → String
  | .increase => "gains"
  | .decrease => "loses"
  | .assign => "has set to"
  | .multiply => "has multiplied"
  | .nullify => "has nullified"
  | .special => "is affected by"

end Change

namespace Stat

/- The name of a stat in a sentence. -/
def phrase : Stat → String
  | .strength => "strength"
  | .defense => "defense"
  | .element => "element"
  | .luck => "luck"
  | .gold => "gold"
  | .health => "health"
  | .movement => "movement"
  | .initiative => "initiative"
  | .critical => "critical hit chance"
  | .resistance => "resistance"

end Stat

namespace Subject

/- A named condition is quoted without its hash signs. -/
def phrase : Subject → String
  | .stat kind => kind.phrase
  | .condition name =>
      "the '" ++
        String.ofList (name.toList.dropWhile (· == '#')) ++
        "' condition"

end Subject

namespace Magnitude

/- By how much the subject changes. -/
def phrase (magnitude : Magnitude) : String :=
  if magnitude.isFull then
    "to its maximum value"
  else if magnitude.isPercentage then
    "by " ++ wordDecimal magnitude.value ++ "%"
  else
    "by " ++ wordDecimal magnitude.value

end Magnitude

namespace Duration

/- For how long the change lasts. -/
def phrase : Duration → String
  | .turns count => "for " ++ wordDecimal count ++ " turns"
  | .turnRange first last =>
      "for " ++ wordDecimal first ++ "-" ++
        wordDecimal last ++ " turns"
  | .combat => "for the duration of combat"
  | .permanent => "permanently"
  | .action => "for a single action"

end Duration

namespace Event

/- When an event makes an effect act. -/
def phrase : Event → String
  | .onAttack => "when attacking"
  | .onDefend => "when defending"
  | .turnStart => "at the start of their turn"
  | .turnEnd => "at the end of their turn"
  | .onKill => "on kill"

end Event

namespace Trigger

/- When an effect acts. -/
def phrase : Trigger → String
  | .event kind => kind.phrase
  | .chance percent =>
      "with a " ++ wordDecimal percent ++
        "% chance each turn"
  | .condition test => "when " ++ test.render

end Trigger

namespace Element

/- The name of an element in a sentence. -/
def phrase : Element → String
  | .fire => "Fire"
  | .water => "Water"
  | .earth => "Earth"
  | .sky => "Sky"
  | .death => "Death"

/- The elements of an effect, in parentheses. -/
def listPhrase : List Element → Option String
  | [] => none
  | [element] => some ("(" ++ element.phrase ++ " element)")
  | elements =>
      some
        ("(" ++
          separated ", " (elements.map phrase) ++
          " elements)")

end Element

namespace Flag

/- What a flag says of an effect. -/
def phrase : Flag → String
  | .stacking => "can stack"
  | .areaEffect => "affects an area"
  | .damageOverTime => "deals damage over time"

end Flag

namespace Removability

/- How an effect can be removed. -/
def phrase : Removability → String
  | .nonRemovable => "cannot be removed"
  | .easilyRemoved => "can be easily removed"
  | .difficultToRemove => "is difficult to remove"
  | .cleanseSpecific => "requires specific cleansing"

end Removability

namespace ChainEffect

/- What an effect does when it ends. -/
def phrase : ChainEffect → String
  | .heal => "triggers healing when it ends"
  | .explode => "explodes for damage when it ends"
  | .spread => "spreads to nearby targets when it ends"
  | .trigger => "triggers another effect when it ends"

end ChainEffect

namespace SourceLink

/- Whether an effect outlives its source. -/
def phrase : SourceLink → String
  | .playerLinked => "ends if the player dies"
  | .enemyLinked => "ends if the enemy dies"
  | .independent => "persists regardless of source"

end SourceLink

namespace Stacking

/- What happens when an effect is applied again. -/
def phrase (stacking : Stacking) : String :=
  match stacking.rule, stacking.count with
  | .maxStacks, some count =>
      "stacks up to " ++ wordDecimal count ++ " times"
  | .maxStacks, none => "stacks up to a limit"
  | .addDuration, _ => "adds duration when reapplied"
  | .multiplyEffect, _ => "multiplies effect when stacked"
  | .uniqueStacking, _ =>
      "allows unique stacking from different sources"

end Stacking

namespace Visibility

/- Who can see an effect. -/
def phrase : Visibility → String
  | .hidden => "is hidden from the target"
  | .visibleAll => "is visible to all"
  | .visiblePlayer => "is only visible to the player"

end Visibility

namespace Resource

/- The name of a resource in a sentence. -/
def phrase : Resource → String
  | .mana => "mana"
  | .health => "health"
  | .gold => "gold"

end Resource

namespace ResourceLink

/- What an effect costs. An unknown amount is some. -/
def phrase (link : ResourceLink) : String :=
  match link.amount with
  | some amount =>
      "costs " ++ wordDecimal amount ++ " " ++
        link.resource.phrase ++ " per turn"
  | none => "costs some " ++ link.resource.phrase ++ " per turn"

end ResourceLink

namespace Interaction

/- What an effect does to similar ones. -/
def phrase : Interaction → String
  | .exclusive => "cancels similar effects"
  | .additive => "adds with similar effects"
  | .multiplicative => "multiplies with similar effects"

end Interaction

namespace MetaEffect

/- How an effect changes itself. -/
def phrase : MetaEffect → String
  | .gobstopper => "transforms into new effects over time"
  | .phase => "changes based on combat phase"
  | .echo => "repeats at intervals"
  | .flux => "fluctuates in strength"

end MetaEffect

------------------------------------------------------------
-- Sentences
------------------------------------------------------------

namespace Effect

/- The sentence on the core clauses. -/
def coreSentence (effect : Effect) : String :=
  separated " "
    ([effect.target.phrase, effect.change.phrase,
      effect.subject.phrase] ++
      (effect.magnitude.map Magnitude.phrase).toList ++
      (effect.duration.map Duration.phrase).toList ++
      (effect.trigger.map Trigger.phrase).toList ++
      (Element.listPhrase effect.elements).toList)

/- A chain effect, with its target explained in parentheses. -/
def chainPhrase
    (chainEffect : ChainEffect)
    (target : Option String) : String :=
  match target with
  | some inner => chainEffect.phrase ++ " (" ++ inner ++ ")"
  | none => chainEffect.phrase

/-
  The phrases on the attributes other than flags, given the
  explanation of the chain target.
-/
def attributePhrases
    (effect : Effect)
    (target : Option String) : List String :=
  (effect.removability.map Removability.phrase).toList ++
    (effect.chainEffect.map fun chainEffect =>
      chainPhrase chainEffect target).toList ++
    (effect.source.map SourceLink.phrase).toList ++
    (effect.stacking.map Stacking.phrase).toList ++
    (effect.visibility.map Visibility.phrase).toList ++
    (effect.resource.map ResourceLink.phrase).toList ++
    (effect.conditions.map fun condition =>
      "only works when " ++ condition.render) ++
    (effect.interaction.map Interaction.phrase).toList ++
    (effect.metaEffect.map MetaEffect.phrase).toList

/- A further sentence, or nothing if it has no phrases. -/
def sentence
    (opening : String)
    (phrases : List String) : String :=
  if phrases.isEmpty then
    ""
  else
    ". " ++ opening ++ " " ++ separated ", " phrases

/-
  The explanation of an effect, given the explanation of its
  chain target.
-/
def explanation
    (effect : Effect)
    (target : Option String) : String :=
  effect.coreSentence ++
    sentence "This effect" (effect.flags.map Flag.phrase) ++
    sentence "The effect" (effect.attributePhrases target)

end Effect

namespace Record

/- The explanation of a chain, if there is one. -/
def chainExplanation : List Effect → Option String
  | [] => none
  | effect :: chain =>
      some (effect.explanation (chainExplanation chain))

/- The explanation of a record. -/
def explanation (record : Record) : String :=
  record.effect.explanation (chainExplanation record.chain)

end Record

end StatusEffect
