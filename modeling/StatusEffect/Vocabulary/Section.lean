import StatusEffect.Vocabulary.Basic

/-
  The vocabularies of the extended sections: flags,
  removability, chain effects, source links, stacking,
  visibility, resources, interactions and meta effects.

  Key definitions include:
    * `Flag`
    * `Removability`
    * `ChainEffect`
    * `SourceLink`
    * `StackRule`
    * `Visibility`
    * `Resource`
    * `Interaction`
    * `MetaEffect`
    * `StackRule.takesCount`
    * `MetaEffect.ofName?`
-/

------------------------------------------------------------
-- Extended Sections
------------------------------------------------------------

namespace StatusEffect

/- The flags that an effect can carry. -/
inductive Flag where
  | stacking
  | areaEffect
  | damageOverTime
deriving DecidableEq, Repr

instance : Vocabulary Flag where
  all := [.stacking, .areaEffect, .damageOverTime]
  code
    | .stacking => "ST"
    | .areaEffect => "AR"
    | .damageOverTime => "DOT"

instance : Labelled Flag where
  label
    | .stacking => "Stacking"
    | .areaEffect => "AreaEffect"
    | .damageOverTime => "DamageOverTime"

/- How an effect can be removed. -/
inductive Removability where
  | nonRemovable
  | easilyRemoved
  | difficultToRemove
  | cleanseSpecific
deriving DecidableEq, Repr

instance : Vocabulary Removability where
  all :=
    [.nonRemovable, .easilyRemoved, .difficultToRemove,
     .cleanseSpecific]
  code
    | .nonRemovable => "RN"
    | .easilyRemoved => "RE"
    | .difficultToRemove => "RD"
    | .cleanseSpecific => "RC"

instance : Labelled Removability where
  label
    | .nonRemovable => "NonRemovable"
    | .easilyRemoved => "EasilyRemoved"
    | .difficultToRemove => "DifficultToRemove"
    | .cleanseSpecific => "CleanseSpecific"

/- What happens when the effect ends. -/
inductive ChainEffect where
  | heal
  | explode
  | spread
  | trigger
deriving DecidableEq, Repr

instance : Vocabulary ChainEffect where
  all := [.heal, .explode, .spread, .trigger]
  code
    | .heal => ">Heal"
    | .explode => ">Expl"
    | .spread => ">Sprd"
    | .trigger => ">Trig"

instance : Labelled ChainEffect where
  label
    | .heal => "Heal"
    | .explode => "Explode"
    | .spread => "Spread"
    | .trigger => "Trigger"

/- Whose death ends the effect. -/
inductive SourceLink where
  | playerLinked
  | enemyLinked
  | independent
deriving DecidableEq, Repr

instance : Vocabulary SourceLink where
  all := [.playerLinked, .enemyLinked, .independent]
  code
    | .playerLinked => "~P"
    | .enemyLinked => "~E"
    | .independent => "~I"

instance : Labelled SourceLink where
  label
    | .playerLinked => "PlayerLinked"
    | .enemyLinked => "EnemyLinked"
    | .independent => "Independent"

/- How repeated applications add up. -/
inductive StackRule where
  | maxStacks
  | addDuration
  | multiplyEffect
  | uniqueStacking
deriving DecidableEq, Repr

instance : Vocabulary StackRule where
  all :=
    [.maxStacks, .addDuration, .multiplyEffect,
     .uniqueStacking]
  code
    | .maxStacks => "S"
    | .addDuration => "S+"
    | .multiplyEffect => "S*"
    | .uniqueStacking => "SU"

instance : Labelled StackRule where
  label
    | .maxStacks => "MaxStacks"
    | .addDuration => "AddDuration"
    | .multiplyEffect => "MultiplyEffect"
    | .uniqueStacking => "UniqueStacking"

namespace StackRule

/- Only a limit on the number of stacks carries a count. -/
def takesCount : StackRule → Bool
  | .maxStacks => true
  | _ => false

end StackRule

/- Who can see the effect. -/
inductive Visibility where
  | hidden
  | visibleAll
  | visiblePlayer
deriving DecidableEq, Repr

instance : Vocabulary Visibility where
  all := [.hidden, .visibleAll, .visiblePlayer]
  code
    | .hidden => "VH"
    | .visibleAll => "VV"
    | .visiblePlayer => "VP"

instance : Labelled Visibility where
  label
    | .hidden => "Hidden"
    | .visibleAll => "VisibleAll"
    | .visiblePlayer => "VisiblePlayer"

/- The resources that an effect can drain. -/
inductive Resource where
  | mana
  | health
  | gold
deriving DecidableEq, Repr

instance : Vocabulary Resource where
  all := [.mana, .health, .gold]
  code
    | .mana => "$MP"
    | .health => "$HP"
    | .gold => "$G"

instance : Labelled Resource where
  label
    | .mana => "Mana"
    | .health => "Health"
    | .gold => "Gold"

/- How the effect combines with similar ones. -/
inductive Interaction where
  | exclusive
  | additive
  | multiplicative
deriving DecidableEq, Repr

instance : Vocabulary Interaction where
  all := [.exclusive, .additive, .multiplicative]
  code
    | .exclusive => "IX"
    | .additive => "IA"
    | .multiplicative => "IM"

instance : Labelled Interaction where
  label
    | .exclusive => "Exclusive"
    | .additive => "Additive"
    | .multiplicative => "Multiplicative"

/- Effects that change the effect itself. -/
inductive MetaEffect where
  | gobstopper
  | phase
  | echo
  | flux
deriving DecidableEq, Repr

instance : Vocabulary MetaEffect where
  all := [.gobstopper, .phase, .echo, .flux]
  code
    | .gobstopper => "#Gobstop"
    | .phase => "#Phase"
    | .echo => "#Echo"
    | .flux => "#Flux"

instance : Labelled MetaEffect where
  label
    | .gobstopper => "Gobstopper"
    | .phase => "Phase"
    | .echo => "Echo"
    | .flux => "Flux"

namespace MetaEffect

/- The word behind any number of leading hash signs. -/
def bareName (text : String) : List Char :=
  text.toList.dropWhile (· == '#')

/-
  The meta effect that a word names. A word names the first
  meta effect whose bare name it starts with, so that longer
  spellings of a name are understood.
-/
def ofName? (text : String) : Option MetaEffect :=
  (Vocabulary.all : List MetaEffect).find? fun word =>
    (bareName (Vocabulary.code word)).isPrefixOf
      (bareName text)

end MetaEffect

end StatusEffect
