import StatusEffect.Vocabulary.Basic

/-
  The vocabularies of the core clauses: target, change,
  stat, duration, trigger and element.

  Key definitions include:
    * `Target`
    * `Change`
    * `Stat`
    * `Span`
    * `Event`
    * `Element`
    * `Event.needsSign`
-/

------------------------------------------------------------
-- Mandatory Clauses
------------------------------------------------------------

namespace StatusEffect

/- Who the effect applies to. -/
inductive Target where
  | player
  | enemy
  | allAllies
  | allEnemies
  | everyone
deriving DecidableEq, Repr

instance : Vocabulary Target where
  all :=
    [.player, .enemy, .allAllies, .allEnemies, .everyone]
  code
    | .player => "P"
    | .enemy => "E"
    | .allAllies => "A"
    | .allEnemies => "X"
    | .everyone => "G"

instance : Labelled Target where
  label
    | .player => "Player"
    | .enemy => "Enemy"
    | .allAllies => "AllAllies"
    | .allEnemies => "AllEnemies"
    | .everyone => "Global"

/- How the affected stat changes. -/
inductive Change where
  | increase
  | decrease
  | assign
  | multiply
  | nullify
  | special
deriving DecidableEq, Repr

instance : Vocabulary Change where
  all :=
    [.increase, .decrease, .assign, .multiply, .nullify,
     .special]
  code
    | .increase => "+"
    | .decrease => "-"
    | .assign => "="
    | .multiply => "*"
    | .nullify => "!"
    | .special => "#"

instance : Labelled Change where
  label
    | .increase => "Increase"
    | .decrease => "Decrease"
    | .assign => "Set"
    | .multiply => "Multiply"
    | .nullify => "Nullify"
    | .special => "Special"

/- The stats that an effect can change. -/
inductive Stat where
  | strength
  | defense
  | element
  | luck
  | gold
  | health
  | movement
  | initiative
  | critical
  | resistance
deriving DecidableEq, Repr

instance : Vocabulary Stat where
  all :=
    [.strength, .defense, .element, .luck, .gold, .health,
     .movement, .initiative, .critical, .resistance]
  code
    | .strength => "S"
    | .defense => "D"
    | .element => "E"
    | .luck => "L"
    | .gold => "G"
    | .health => "H"
    | .movement => "M"
    | .initiative => "I"
    | .critical => "C"
    | .resistance => "R"

instance : Labelled Stat where
  label
    | .strength => "Strength"
    | .defense => "Defense"
    | .element => "Element"
    | .luck => "Luck"
    | .gold => "Gold"
    | .health => "Health"
    | .movement => "Movement"
    | .initiative => "Initiative"
    | .critical => "Critical"
    | .resistance => "Resistance"

------------------------------------------------------------
-- Optional Clauses
------------------------------------------------------------

/- The units of duration. Only turns are counted. -/
inductive Span where
  | turns
  | combat
  | permanent
  | action
deriving DecidableEq, Repr

instance : Vocabulary Span where
  all := [.turns, .combat, .permanent, .action]
  code
    | .turns => "T"
    | .combat => "C"
    | .permanent => "P"
    | .action => "A"

instance : Labelled Span where
  label
    | .turns => "Turns"
    | .combat => "Combat"
    | .permanent => "Permanent"
    | .action => "Action"

/-
  The events that can trigger an effect. All but the kill
  are written as a sign followed by a letter.
-/
inductive Event where
  | onAttack
  | onDefend
  | turnStart
  | turnEnd
  | onKill
deriving DecidableEq, Repr

instance : Vocabulary Event where
  all :=
    [.onAttack, .onDefend, .turnStart, .turnEnd, .onKill]
  code
    | .onAttack => ">A"
    | .onDefend => "<D"
    | .turnStart => "^S"
    | .turnEnd => "vE"
    | .onKill => "K"

instance : Labelled Event where
  label
    | .onAttack => "OnAttack"
    | .onDefend => "OnDefend"
    | .turnStart => "TurnStart"
    | .turnEnd => "TurnEnd"
    | .onKill => "OnKill"

namespace Event

/- Whether an event is written with a sign in front. -/
def needsSign : Event → Bool
  | .onKill => false
  | _ => true

end Event

/- The elemental affinities. -/
inductive Element where
  | fire
  | water
  | earth
  | sky
  | death
deriving DecidableEq, Repr

instance : Vocabulary Element where
  all := [.fire, .water, .earth, .sky, .death]
  code
    | .fire => "F"
    | .water => "W"
    | .earth => "E"
    | .sky => "S"
    | .death => "D"

instance : Labelled Element where
  label
    | .fire => "Fire"
    | .water => "Water"
    | .earth => "Earth"
    | .sky => "Sky"
    | .death => "Death"

end StatusEffect
