import Evmos.Ante.Messages

/-! `ValidatorCommissionDecorator`: validators must charge at least the minimum commission. -/

namespace Evmos.Ante.Commission

open Library

/-- `minCommission`, five percent. -/
def minCommission : Dec := Dec.ofIntWithPrec 5 2

/-- The check of one commission rate. -/
def checkRate (rate : Dec) : Result Unit :=
  if rate < minCommission then
    .error ⟨.errInvalidRequest, "validator commission " ++ rate.toString ++
      " be lower than minimum of " ++ minCommission.toString⟩
  else .ok ()

/-- `validateMsg`: checks the rates of create and edit validator messages. -/
def validateMsg : Msg → Result Unit
  | .createValidator commissionRate => checkRate commissionRate
  | .editValidator (some commissionRate) => checkRate commissionRate
  | _ => .ok ()

/-- `validateAuthz`: checks the messages an authorization carries. -/
def validateAuthz (msgs : List Msg) : Result Unit :=
  Ante.validateAuthz validateMsg msgs

/-- `AnteHandle`, which succeeds where the source calls the next decorator. -/
def anteHandle (msgs : List Msg) : Result Unit :=
  validateTx validateMsg msgs

end Evmos.Ante.Commission
