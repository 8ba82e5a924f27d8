import Evmos.Erc20.Keeper

/-! Genesis of the erc20 module: its validation, import, and export. -/

namespace Evmos.Erc20

open Library

/-- `TokenPair.Validate`. -/
def TokenPair.validate (tp : TokenPair) : Result Unit :=
  if !validDenom tp.denom then .error ⟨.external, "invalid denom: " ++ tp.denom⟩
  else if !isHexAddress tp.erc20Address then
    .error ⟨.errInvalidAddress,
      "address '" ++ tp.erc20Address ++ "' is not a valid ethereum hex address"⟩
  else .ok ()

/-- `GenesisState` of the erc20 module. -/
structure GenesisState where
  params : Params
  tokenPairs : List TokenPair

/-- The loop of `GenesisState.Validate`, with the contracts and denominations seen before. -/
def validateTokenPairs : List String → List Denom → List TokenPair → Result Unit
  | _, _, [] => .ok ()
  | seenErc20, seenDenom, b :: rest =>
    -- Both are compared as they are spelled.
    if b.erc20Address ∈ seenErc20 then
      .error ⟨.external, "token ERC20 contract duplicated on genesis '" ++ b.erc20Address ++ "'"⟩
    else if b.denom ∈ seenDenom then
      .error ⟨.external, "coin denomination duplicated on genesis: '" ++ b.denom ++ "'"⟩
    else do
      b.validate
      validateTokenPairs (b.erc20Address :: seenErc20) (b.denom :: seenDenom) rest

/-- `GenesisState.Validate`. All parameters are valid. -/
def GenesisState.validate (gs : GenesisState) : Result Unit :=
  validateTokenPairs [] [] gs.tokenPairs

/-- `InitGenesis`, where the account keeper may or may not have a module account. -/
def initGenesis (k : Keeper) (moduleAccount : Bool) (s : State) (data : GenesisState) :
    Result State :=
  let s := { s with params := data.params }
  if !moduleAccount then .error ⟨.panic, "the erc20 module account has not been set"⟩
  -- Each pair is stored as a registration stores it.
  else .ok (data.tokenPairs.foldl (fun s pair => s.registerPair k.sum pair) s)

/-- `GetTokenPairs`. -/
def State.getTokenPairs (s : State) : List TokenPair := s.tokenPairs.entries.map Prod.snd

/-- `ExportGenesis`. -/
def exportGenesis (s : State) : GenesisState := ⟨s.params, s.getTokenPairs⟩

end Evmos.Erc20
