import Evmos.Feesplit.Keeper

/-! The queries for the contracts of a deployer and of a withdrawer. -/

namespace Evmos.Feesplit

open Library

/-- `PageRequest` by offset. A request without pagination has a page of zeros. -/
structure PageRequest where
  offset : ℕ
  limit : ℕ

namespace PageRequest

/-- How many results a page has at most, `DefaultLimit` if the request does not say. -/
def size (page : PageRequest) : ℕ := if page.limit = 0 then 100 else page.limit

/-- `query.Paginate`: the keys of a page, in the order of the store. -/
def select (page : PageRequest) (keys : List (List Byte)) : List (List Byte) :=
  (keys.drop page.offset).take page.size

end PageRequest

/-- `QueryDeployerFeeSplitsRequest` and `QueryWithdrawerFeeSplitsRequest`. -/
structure AccountRequest where
  address : String
  pagination : PageRequest

/-- What the two queries share, with the name that their errors have for the account. -/
def accountFeeSplits (k : Keeper) (index : Store (List Byte) Unit) (emptyText formatText : String)
    (req : Option AccountRequest) : Result (List String) :=
  match req with
  | none => .error ⟨.invalidArgument, "empty request"⟩
  | some req =>
    if isBlank req.address then
      .error ⟨.invalidArgument, emptyText ++ " address is empty"⟩
    else
      match k.bech32.decode req.address with
      | none =>
        .error ⟨.invalidArgument, "invalid format for " ++ formatText ++ " " ++ req.address ++
          ", should be bech32 ('evmos...')"⟩
      | some account =>
        -- The rest of a key is read as an address, whatever its length is.
        let keys := req.pagination.select (index.scan (k.addressBytes.bytes account))
        .ok (keys.map fun key => k.format.spell (bytesToAddress key))

/-- `DeployerFeeSplits`. -/
def deployerFeeSplits (k : Keeper) (s : State) (req : Option AccountRequest) :
    Result (List String) :=
  accountFeeSplits k s.deployerMap "deployer" "deployer" req

/-- `WithdrawerFeeSplits`. -/
def withdrawerFeeSplits (k : Keeper) (s : State) (req : Option AccountRequest) :
    Result (List String) :=
  accountFeeSplits k s.withdrawerMap "withdraw" "withdraw addr" req

end Evmos.Feesplit
