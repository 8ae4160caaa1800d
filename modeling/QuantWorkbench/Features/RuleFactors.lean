import QuantWorkbench.Lib.Fallible
import QuantWorkbench.Lib.Columns

/-!
The rule baseline: a score of fixed weights over factors that are put on one scale across the
symbols of a date.
-/

namespace QuantWorkbench.Features

open Lib
open FloatColumns

inductive RuleFactor where
  | moneyFlow
  | momentum
  | trend
  | relativeStrength
  | volumeTurnover
  | quality
  | valuation
  | volatilityRisk
  deriving DecidableEq

def ruleFactors : List RuleFactor :=
  [.moneyFlow, .momentum, .trend, .relativeStrength, .volumeTurnover, .quality, .valuation,
    .volatilityRisk]

structure RuleFactorConfig (F : Type) where
  weights : RuleFactor → F
  /-- Higher values of the factor are better. -/
  positive : RuleFactor → Bool
  lowerQuantile : F
  upperQuantile : F
  lowerBound : F
  upperBound : F

variable {F : Type} [FloatColumns F]

/-- A column with its values limited to its quantiles. -/
def winsorized (lowerQuantile upperQuantile : F) (values : List F) : List F :=
  let valid := values.filter fun value => !isMissing value
  let lower := quantile lowerQuantile valid
  let upper := quantile upperQuantile valid
  values.map fun value => if isMissing value then value else clip lower upper value

def standardizeFactor (positive : Bool) (lowerQuantile upperQuantile : F) (values : List F) :
    List F :=
  if values.all isMissing then values.map fun _ => missing
  else
    let clipped := winsorized lowerQuantile upperQuantile values
    let center := mean clipped
    let scale := std clipped
    clipped.map fun value =>
      if isMissing value then missing
      else
        let deviation := if less (ofRat 0) scale then div (sub value center) scale else ofRat 0
        let directed := mul deviation (ofRat (if positive then 1 else -1))
        clip (ofRat 0) (ofRat 100)
          (add (ofRat 50) (mul (ofRat 25) (clip (ofRat (-2)) (ofRat 2) directed)))

namespace RuleFactorConfig

variable (config : RuleFactorConfig F)

def factorScores (values : List F) (factor : RuleFactor) : List F :=
  standardizeFactor (config.positive factor) config.lowerQuantile config.upperQuantile values

def ruleScore (scores : RuleFactor → F) : F :=
  let denominator := sum (ruleFactors.map fun factor =>
    if isMissing (scores factor) then ofRat 0 else config.weights factor)
  let numerator := sum (ruleFactors.map fun factor =>
    if isMissing (scores factor) then ofRat 0 else mul (scores factor) (config.weights factor))
  clip config.lowerBound config.upperBound (div numerator denominator)

def score {R : Type} (value : RuleFactor → R → F) (rows : List R) : Except String (List (R × F)) := do
  require (rows ≠ []) "rule factor input must be a non-empty DataFrame"
  let columns := fun factor => config.factorScores (rows.map (value factor)) factor
  return rows.zipIdx.map fun (row, position) =>
    (row, config.ruleScore fun factor => (columns factor).getD position missing)

end RuleFactorConfig

end QuantWorkbench.Features
