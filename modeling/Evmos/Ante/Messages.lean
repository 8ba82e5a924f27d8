import Evmos.Library.Dec
import Evmos.Sdk.Types

/-! Transaction messages, and how two of the ante decorators walk through them. -/

namespace Evmos.Ante

open Library

/-- A message of a transaction, or of an authorization nested in one. -/
inductive Msg where
  /-- `authz.MsgExec`, with the messages it carries. -/
  | exec (msgs : List Msg)
  /-- A packed message that `UnpackAny` rejects, found inside an authorization only. -/
  | undecodable
  /-- `stakingtypes.MsgCreateValidator`, with its commission rate. -/
  | createValidator (commissionRate : Dec)
  /-- `stakingtypes.MsgEditValidator`, with its commission rate unless that is nil. -/
  | editValidator (commissionRate : Option Dec)
  /-- `stakingtypes.MsgDelegate`, signed by the delegator. -/
  | delegate (delegator : Address) (denom : Denom) (amount : ℕ)
  /-- `evmtypes.MsgEthereumTx`, with its sender. -/
  | ethereumTx (sender : Address)
  /-- A message of any other type, with the name of that type. -/
  | other (typeName : String)

namespace Msg

/-- The Go type of a message, as `%T` prints it. -/
def typeName : Msg → String
  | .exec _ => "*authz.MsgExec"
  | .undecodable => "*types.Any"
  | .createValidator _ => "*types.MsgCreateValidator"
  | .editValidator _ => "*types.MsgEditValidator"
  | .delegate .. => "*types.MsgDelegate"
  | .ethereumTx _ => "*types.MsgEthereumTx"
  | .other name => name

/-- A message occurs in the tree of a transaction, at the top or inside authorizations. -/
inductive Within (msg : Msg) : List Msg → Prop where
  /-- The message is one of the list. -/
  | top {msgs : List Msg} (member : msg ∈ msgs) : Within msg msgs
  /-- The message occurs in an authorization of the list. -/
  | inner {msgs nested : List Msg} (member : .exec nested ∈ msgs) (within : Within msg nested) :
      Within msg msgs

end Msg

/-- `validateAuthz`, which two decorators share: checks the messages an authorization carries. -/
def validateAuthz (validateMsg : Msg → Result Unit) (msgs : List Msg) : Result Unit :=
  msgs.forM fun
    | .undecodable => .error ⟨.external, "cannot unmarshal authz exec msgs"⟩
    | innerMsg => validateMsg innerMsg

/-- The loop over a transaction's messages, which two decorators share. -/
def validateTx (validateMsg : Msg → Result Unit) (msgs : List Msg) : Result Unit :=
  msgs.forM fun
    -- Check for bypassing authorization.
    | .exec nested => validateAuthz validateMsg nested
    | msg => validateMsg msg

end Evmos.Ante
