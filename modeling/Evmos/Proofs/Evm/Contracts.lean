import Evmos.Evm.Contracts

/-! What transactions and hostile code can do to the tokens of an account that takes no part. -/

namespace Evmos

open Library

/-- What a log reports to have reached an account, as a `Transfer` of a contract. -/
def Log.received (holder contract : EthAddress) (log : Log) : ℕ :=
  if log.address = contract then
    match log.topics with
    | [eventID, _, toTopic] =>
      if eventByID eventID = some .transfer ∧ EthAddress.ofTopic toTopic = holder then
        log.data.getD 0
      else 0
    | _ => 0
  else 0

/-- What a receipt reports to have reached an account, by contract. -/
def received (holder : EthAddress) (logs : List Log) (contract : EthAddress) : ℕ :=
  (logs.map (Log.received holder contract)).sum

/-- A holder's standard tokens cover an amount, and without a contract there is nothing to cover. -/
def Backs (holder : EthAddress) (amount : ℕ) : Option Contract → Prop
  | none => amount = 0
  | some (.standard _ _ token) => amount ≤ token.balances holder
  | some _ => True

/-- There is a contract of the module, of at most some supply. -/
def Owns (supply : ℕ) : Option Contract → Prop
  | some (.minterBurner _ token) => token.totalSupply ≤ supply
  | _ => False

/-- The holder has approved nobody for any standard token. -/
def Evm.Unapproved (holder : EthAddress) (evm : Evm) : Prop :=
  ∀ address issuer data token, evm.contracts address = some (.standard issuer data token) →
    token.Unapproved holder

/-- Contracts change as they may without the holder, and report what reaches it. -/
structure Evolves (holder : EthAddress) (receives : EthAddress → ℕ) (before after : Evm) : Prop where
  -- What was covered still is, together with what was received.
  backs : ∀ address amount, Backs holder amount (before.contracts address) →
    Backs holder (amount + receives address) (after.contracts address)
  -- Contracts of the module stay, and their supply does not grow.
  owns : ∀ address supply, Owns supply (before.contracts address) →
    Owns supply (after.contracts address)
  present : ∀ address, before.contracts address ≠ none → after.contracts address ≠ none

section Logs

variable {holder : EthAddress}

@[simp] theorem received_nil (contract : EthAddress) : received holder [] contract = 0 := rfl

@[simp] theorem received_cons (log : Log) (logs : List Log) (contract : EthAddress) :
    received holder (log :: logs) contract =
      log.received holder contract + received holder logs contract := by
  simp [received]

@[simp] theorem received_append (logs more : List Log) (contract : EthAddress) :
    received holder (logs ++ more) contract =
      received holder logs contract + received holder more contract := by
  simp [received]

/-- The log of an event reports what the event does. -/
theorem received_ofEvent (address : EthAddress) (event : Token.Event EthAddress) :
    (Log.ofEvent address event).received holder address = event.received holder := by
  -- The log is decoded by its topic, which names one of the two events.
  have transferID : eventByID Erc20Event.transfer.id = some .transfer := by decide
  have approvalID : eventByID Erc20Event.approval.id = some .approval := by decide
  cases event with
  | transfer source target amount =>
    simp [Log.ofEvent, Log.received, Token.Event.received, transferID]
  | approval owner spender amount =>
    simp [Log.ofEvent, Log.received, Token.Event.received, approvalID]

theorem received_elsewhere {logs : List Log} {address contract : EthAddress}
    (own : ∀ log ∈ logs, log.address = address) (other : contract ≠ address) :
    received holder logs contract = 0 := by
  refine List.sum_eq_zero ?_
  intro amount member
  obtain ⟨log, inside, rfl⟩ := List.mem_map.mp member
  -- Each log counts for the contract that wrote it.
  rw [Log.received, if_neg]
  rw [own log inside]
  exact other.symm

theorem received_events (address contract : EthAddress) (events : List (Token.Event EthAddress)) :
    received holder (events.map (Log.ofEvent address)) contract =
      if contract = address then (events.map (Token.Event.received holder)).sum else 0 := by
  -- Other contracts receive nothing.
  split_ifs with here
  · subst here
    simp only [received, List.map_map, Function.comp_def, received_ofEvent]
  · refine received_elsewhere ?_ here
    intro log member
    obtain ⟨event, -, rfl⟩ := List.mem_map.mp member
    cases event <;> rfl

end Logs

section Relations

variable {holder : EthAddress}

theorem Backs.mono {contract : Option Contract} {amount less : ℕ}
    (backs : Backs holder amount contract) (below : less ≤ amount) :
    Backs holder less contract := by
  -- Nothing is covered by a contract that is not there.
  rcases contract with _ | _ | _ | _
  · exact Nat.eq_zero_of_le_zero (below.trans (le_of_eq backs))
  · trivial
  · exact below.trans backs
  · trivial

namespace Evolves

theorem refl (evm : Evm) : Evolves holder 0 evm evm where
  backs _ _ backs := backs
  owns _ _ owns := owns
  present _ present := present

theorem trans {first second : EthAddress → ℕ} {before middle after : Evm}
    (earlier : Evolves holder first before middle) (later : Evolves holder second middle after) :
    Evolves holder (first + second) before after where
  backs address amount backs := by
    have both := later.backs address _ (earlier.backs address amount backs)
    rw [add_assoc] at both
    exact both
  owns address supply owns := later.owns address supply (earlier.owns address supply owns)
  present address present := later.present address (earlier.present address present)

theorem setContract {receives : EthAddress → ℕ} {evm : Evm} {address : EthAddress}
    {contract : Contract} (elsewhere : ∀ other, other ≠ address → receives other = 0)
    (backs : ∀ amount, Backs holder amount (evm.contracts address) →
      Backs holder (amount + receives address) (some contract))
    (owns : ∀ supply, Owns supply (evm.contracts address) → Owns supply (some contract)) :
    Evolves holder receives evm (evm.setContract address contract) where
  backs other amount covered := by
    -- Each of the three conditions is about one contract.
    by_cases here : other = address
    · subst here
      simpa [Evm.setContract] using backs amount covered
    · simpa [Evm.setContract, here, elsewhere other here] using covered
  owns other supply owned := by
    by_cases here : other = address
    · subst here
      simpa [Evm.setContract] using owns supply owned
    · simpa [Evm.setContract, here] using owned
  present other there := by
    by_cases here : other = address
    · subst here
      simp [Evm.setContract]
    · simpa [Evm.setContract, here] using there

theorem covers {receives : EthAddress → ℕ} {before after : Evm}
    (evolves : Evolves holder receives before after) {address : EthAddress} {amount : ℕ}
    (backs : Backs holder amount (before.contracts address)) :
    Backs holder amount (after.contracts address) :=
  (evolves.backs address amount backs).mono (Nat.le_add_right _ _)

end Evolves

theorem Evm.Unapproved.setContract {evm : Evm} (unapproved : evm.Unapproved holder)
    {address : EthAddress} {contract : Contract}
    (new : ∀ issuer data token, contract = .standard issuer data token → token.Unapproved holder) :
    (evm.setContract address contract).Unapproved holder := by
  intro other issuer data token found
  -- The contract found is the new one, or one of before.
  by_cases here : other = address
  · subst here
    exact new issuer data token (Option.some.inj (by simpa [Evm.setContract] using found))
  · exact unapproved other issuer data token (by simpa [Evm.setContract, here] using found)

end Relations

section Execution

variable {holder moduleAddress caller : EthAddress} {data : ERC20Data}
  {token after : Token EthAddress} {method : Method} {ret : Ret}
  {events : List (Token.Event EthAddress)} {isMinter : Bool}

theorem execToken_totalSupply_le
    (ran : Contract.execToken false false data token caller method = some (ret, after, events)) :
    after.totalSupply ≤ token.totalSupply := by
  cases method with
  | mint target amount => simp [Contract.execToken] at ran
  | burnCoins source amount => simp [Contract.execToken] at ran
  | token call =>
    obtain ⟨⟨result, reported⟩, done, same⟩ := Option.bind_eq_some_iff.mp ran
    obtain ⟨-, same⟩ := Prod.mk.inj (Option.some.inj same)
    obtain ⟨rfl, rfl⟩ := Prod.mk.inj same
    exact Token.exec_totalSupply_le done
  | _ =>
    -- The queries change nothing.
    obtain ⟨-, same⟩ := Prod.mk.inj (Option.some.inj ran)
    obtain ⟨rfl, -⟩ := Prod.mk.inj same
    exact le_rfl

theorem execToken_mint {isBurner : Bool} {target : EthAddress} {amount : ℕ}
    (ran : Contract.execToken true isBurner data token caller (.mint target amount) =
      some (ret, after, events)) : after.totalSupply = token.totalSupply + amount := by
  obtain ⟨ledger, minted, same⟩ := Option.bind_eq_some_iff.mp ran
  obtain ⟨-, rest⟩ := Prod.mk.inj (Option.some.inj same)
  obtain ⟨rfl, -⟩ := Prod.mk.inj rest
  exact (Token.mint_eq_some minted).2.1

theorem execToken_burnCoins {source : EthAddress} {amount : ℕ}
    (ran : Contract.execToken isMinter true data token caller (.burnCoins source amount) =
      some (ret, after, events)) : after.totalSupply + amount = token.totalSupply := by
  obtain ⟨ledger, destroyed, same⟩ := Option.bind_eq_some_iff.mp ran
  obtain ⟨-, rest⟩ := Prod.mk.inj (Option.some.inj same)
  obtain ⟨rfl, -⟩ := Prod.mk.inj rest
  exact (Token.destroy_eq_some destroyed).2.2.1

theorem execToken_burn {isBurner : Bool} {amount : ℕ}
    (ran : Contract.execToken isMinter isBurner data token caller (.token (.burn amount)) =
      some (ret, after, events)) : after.totalSupply + amount = token.totalSupply := by
  obtain ⟨⟨ledger, reported⟩, done, same⟩ := Option.bind_eq_some_iff.mp ran
  obtain ⟨-, rest⟩ := Prod.mk.inj (Option.some.inj same)
  obtain ⟨rfl, -⟩ := Prod.mk.inj rest
  -- Burning goes through the interface that all tokens share.
  obtain ⟨destroyed, burned, result⟩ := Option.bind_eq_some_iff.mp done
  obtain ⟨rfl, -⟩ := Prod.mk.inj (Option.some.inj result)
  exact (Token.destroy_eq_some burned).2.2.1

/-- Without a burner, methods called by others protect a holder that approved nobody. -/
theorem execToken_protects (unapproved : token.Unapproved holder) (other : caller ≠ holder)
    (nonzero : holder ≠ 0)
    (ran : Contract.execToken isMinter false data token caller method = some (ret, after, events)) :
    after.balances holder = token.balances holder + (events.map (Token.Event.received holder)).sum ∧
      after.Unapproved holder := by
  cases method with
  | mint target amount =>
    cases isMinter with
    | false => simp [Contract.execToken] at ran
    | true =>
      obtain ⟨result, minted, same⟩ := Option.bind_eq_some_iff.mp ran
      obtain ⟨-, same⟩ := Prod.mk.inj (Option.some.inj same)
      obtain ⟨rfl, rfl⟩ := Prod.mk.inj same
      obtain ⟨allowances, -, balances⟩ := Token.mint_eq_some minted
      refine ⟨?_, unapproved.congr allowances⟩
      rw [balances holder]
      simp [Token.Event.received]
  | burnCoins source amount => simp [Contract.execToken] at ran
  | token call =>
    obtain ⟨⟨result, reported⟩, done, same⟩ := Option.bind_eq_some_iff.mp ran
    obtain ⟨-, same⟩ := Prod.mk.inj (Option.some.inj same)
    obtain ⟨rfl, rfl⟩ := Prod.mk.inj same
    exact Token.exec_protects unapproved other nonzero done
  | _ =>
    -- The queries change and report nothing.
    obtain ⟨-, same⟩ := Prod.mk.inj (Option.some.inj ran)
    obtain ⟨rfl, rfl⟩ := Prod.mk.inj same
    exact ⟨by simp, unapproved⟩

/-- A token contract that someone else calls evolves, and reports what the holder receives. -/
theorem exec_evolves {evm : Evm} {address : EthAddress} {contract changed : Contract}
    (unapproved : evm.Unapproved moduleAddress) (other : caller ≠ moduleAddress)
    (nonzero : moduleAddress ≠ 0) (found : evm.contracts address = some contract)
    (ran : contract.exec moduleAddress caller method = some (ret, changed, events)) :
    (evm.setContract address changed).Unapproved moduleAddress ∧
      Evolves moduleAddress (received moduleAddress (events.map (Log.ofEvent address))) evm
        (evm.setContract address changed) := by
  have elsewhere : ∀ contract, contract ≠ address →
      received moduleAddress (events.map (Log.ofEvent address)) contract = 0 := by
    intro contract apart
    rw [received_events, if_neg apart]
  cases contract with
  | minterBurner data token =>
    obtain ⟨⟨result, after, reported⟩, done, same⟩ := Option.bind_eq_some_iff.mp ran
    obtain ⟨-, same⟩ := Prod.mk.inj (Option.some.inj same)
    obtain ⟨rfl, rfl⟩ := Prod.mk.inj same
    -- Someone else is no minter, so the supply does not grow.
    rw [decide_eq_false other] at done
    have below := execToken_totalSupply_le done
    refine ⟨unapproved.setContract nofun, .setContract elsewhere (fun _ _ => trivial) ?_⟩
    intro supply owns
    rw [found] at owns
    exact below.trans owns
  | standard issuer data token =>
    obtain ⟨⟨result, after, reported⟩, done, same⟩ := Option.bind_eq_some_iff.mp ran
    obtain ⟨-, same⟩ := Prod.mk.inj (Option.some.inj same)
    obtain ⟨rfl, rfl⟩ := Prod.mk.inj same
    -- The holder has approved nobody, so its tokens only become more.
    obtain ⟨balance, still⟩ := execToken_protects (unapproved address issuer data token found) other
      nonzero done
    refine ⟨unapproved.setContract ?_, .setContract elsewhere ?_ ?_⟩
    · intro issuer data token same
      obtain ⟨-, -, rfl⟩ := Contract.standard.inj same
      exact still
    · intro amount backs
      rw [found] at backs
      rw [received_events, if_pos rfl]
      change amount + _ ≤ after.balances moduleAddress
      rw [balance]
      exact Nat.add_le_add_right backs _
    · intro supply owns
      rw [found] at owns
      exact owns.elim
  | hostile alive storage => simp [Contract.exec] at ran

end Execution

section Runs

variable {moduleAddress : EthAddress} {evm after : Evm} {logs : List Log}

/-- One operation of others, which protects the module account. -/
theorem apply_evolves {op : Op} (nonzero : moduleAddress ≠ 0)
    (unapproved : evm.Unapproved moduleAddress)
    (applied : evm.apply moduleAddress op = some (after, logs)) :
    after.Unapproved moduleAddress ∧
      Evolves moduleAddress (received moduleAddress logs) evm after := by
  cases op with
  | call caller address method =>
    simp only [Evm.apply] at applied
    split_ifs at applied with own
    rcases found : evm.contracts address with _ | contract
    · simp only [found] at applied
      obtain ⟨rfl, rfl⟩ := Prod.mk.inj (Option.some.inj applied)
      exact ⟨unapproved, .refl evm⟩
    · cases contract with
      | hostile alive storage =>
        simp only [found] at applied
        obtain ⟨rfl, rfl⟩ := Prod.mk.inj (Option.some.inj applied)
        exact ⟨unapproved, .refl evm⟩
      | minterBurner data token =>
        simp only [found] at applied
        obtain ⟨⟨ret, changed, events⟩, ran, same⟩ := Option.bind_eq_some_iff.mp applied
        obtain ⟨rfl, rfl⟩ := Prod.mk.inj (Option.some.inj same)
        exact exec_evolves unapproved own nonzero found ran
      | standard issuer data token =>
        simp only [found] at applied
        obtain ⟨⟨ret, changed, events⟩, ran, same⟩ := Option.bind_eq_some_iff.mp applied
        obtain ⟨rfl, rfl⟩ := Prod.mk.inj (Option.some.inj same)
        exact exec_evolves unapproved own nonzero found ran
  | run address alive storage emitted =>
    simp only [Evm.apply] at applied
    split at applied
    · rename_i wasAlive stored found
      obtain ⟨rfl, rfl⟩ := Prod.mk.inj (Option.some.inj applied)
      refine ⟨unapproved.setContract nofun, .setContract ?_ (fun _ _ => trivial) ?_⟩
      · intro other apart
        refine received_elsewhere ?_ apart
        intro log member
        obtain ⟨entry, -, rfl⟩ := List.mem_map.mp member
        rfl
      · intro supply owns
        rw [found] at owns
        exact owns.elim
    · cases applied
  | createStandard address issuer data =>
    simp only [Evm.apply] at applied
    split at applied
    · rename_i absent
      obtain ⟨rfl, rfl⟩ := Prod.mk.inj (Option.some.inj applied)
      refine ⟨unapproved.setContract ?_, .setContract (fun _ _ => rfl) ?_ ?_⟩
      · intro issuer data token same
        obtain ⟨-, -, rfl⟩ := Contract.standard.inj same
        exact Token.empty_unapproved _
      · -- Nothing had to be covered before there was a contract.
        intro amount backs
        rw [absent] at backs
        exact le_of_eq backs
      · intro supply owns
        rw [absent] at owns
        exact owns.elim
    · cases applied
  | createHostile address storage =>
    simp only [Evm.apply] at applied
    split at applied
    · rename_i absent
      obtain ⟨rfl, rfl⟩ := Prod.mk.inj (Option.some.inj applied)
      refine ⟨unapproved.setContract nofun, .setContract (fun _ _ => rfl) (fun _ _ => trivial) ?_⟩
      intro supply owns
      rw [absent] at owns
      exact owns.elim
    · cases applied

theorem run_evolves (nonzero : moduleAddress ≠ 0) {ops : List Op} :
    ∀ {evm after : Evm} {logs : List Log}, evm.Unapproved moduleAddress →
      evm.run moduleAddress ops = some (after, logs) →
      after.Unapproved moduleAddress ∧
        Evolves moduleAddress (received moduleAddress logs) evm after := by
  induction ops with
  | nil =>
    intro evm after logs unapproved ran
    obtain ⟨rfl, rfl⟩ := Prod.mk.inj (Option.some.inj ran)
    exact ⟨unapproved, .refl evm⟩
  | cons op ops ih =>
    intro evm after logs unapproved ran
    obtain ⟨⟨middle, first⟩, applied, rest⟩ := Option.bind_eq_some_iff.mp ran
    obtain ⟨⟨last, second⟩, continued, same⟩ := Option.bind_eq_some_iff.mp rest
    obtain ⟨rfl, rfl⟩ := Prod.mk.inj (Option.some.inj same)
    obtain ⟨unapproved, earlier⟩ := apply_evolves nonzero unapproved applied
    obtain ⟨unapproved, later⟩ := ih unapproved continued
    refine ⟨unapproved, ?_⟩
    -- The logs are written one after the other, and so are the amounts in them.
    have both := earlier.trans later
    have sums : received moduleAddress first + received moduleAddress second =
        received moduleAddress (first ++ second) := by
      funext contract
      simp
    rwa [sums] at both

theorem applyMessage_cases {program : Program} {caller address : EthAddress} {method : Method}
    {res : Response}
    (applied : evm.applyMessage moduleAddress program caller address method = .ok (res, after)) :
    -- There is no code.
    (evm.contracts address = none ∧ res = ⟨.malformed, []⟩ ∧ after = evm) ∨
    -- Hostile code lets others act.
    (∃ alive storage ops, evm.contracts address = some (.hostile alive storage) ∧
      evm.run moduleAddress ops = some (after, res.logs)) ∨
    -- A token contract runs the method.
    ∃ contract changed events, evm.contracts address = some contract ∧
      contract.exec moduleAddress caller method = some (res.ret, changed, events) ∧
      res.logs = events.map (Log.ofEvent address) ∧ after = evm.setContract address changed := by
  unfold Evm.applyMessage at applied
  -- The cases are those of the code at the address.
  split at applied
  · rename_i absent
    obtain ⟨rfl, rfl⟩ := Prod.mk.inj (Except.ok.inj applied)
    exact .inl ⟨absent, rfl, rfl⟩
  · rename_i storage found
    obtain ⟨rfl, rfl⟩ := Prod.mk.inj (Except.ok.inj applied)
    exact .inr (.inl ⟨false, storage, [], found, rfl⟩)
  · rename_i storage found
    split at applied
    · cases applied
    · rename_i ret ops replied
      split at applied
      · cases applied
      · rename_i last logs ran
        obtain ⟨rfl, rfl⟩ := Prod.mk.inj (Except.ok.inj applied)
        exact .inr (.inl ⟨true, storage, ops, found, ran⟩)
  · rename_i contract _ _ found
    split at applied
    · cases applied
    · rename_i ret changed events ran
      obtain ⟨rfl, rfl⟩ := Prod.mk.inj (Except.ok.inj applied)
      exact .inr (.inr ⟨contract, changed, events, found, ran, rfl, rfl⟩)

/-- Contracts stay where they are, and those of the module remain its contracts. -/
structure Persists (before after : Evm) : Prop where
  owns : ∀ address supply, Owns supply (before.contracts address) →
    ∃ supply, Owns supply (after.contracts address)
  present : ∀ address, before.contracts address ≠ none → after.contracts address ≠ none

namespace Persists

theorem refl (evm : Evm) : Persists evm evm where
  owns _ supply owns := ⟨supply, owns⟩
  present _ there := there

theorem trans {before middle after : Evm} (earlier : Persists before middle)
    (later : Persists middle after) : Persists before after where
  owns address supply owns := by
    obtain ⟨between, owns⟩ := earlier.owns address supply owns
    exact later.owns address between owns
  present address there := later.present address (earlier.present address there)

/-- One contract changes, and a contract of the module into another one. -/
theorem setContract {evm : Evm} {address : EthAddress} {contract : Contract}
    (owns : ∀ supply, Owns supply (evm.contracts address) → ∃ supply, Owns supply (some contract)) :
    Persists evm (evm.setContract address contract) where
  owns other supply owned := by
    by_cases here : other = address
    · subst here
      simpa [Evm.setContract] using owns supply owned
    · exact ⟨supply, by simpa [Evm.setContract, here] using owned⟩
  present other there := by
    by_cases here : other = address
    · simp [Evm.setContract, here]
    · simpa [Evm.setContract, here] using there

/-- A contract takes the place of one that is not the module's, or of none. -/
theorem replace {evm : Evm} {address : EthAddress} {contract : Contract}
    (other : ∀ supply, ¬Owns supply (evm.contracts address)) :
    Persists evm (evm.setContract address contract) :=
  setContract fun supply owns => absurd owns (other supply)

end Persists

/-- A token contract stays a contract of its kind, whoever calls it. -/
theorem exec_persists {caller address : EthAddress} {method : Method} {contract changed : Contract}
    {ret : Ret} {events : List (Token.Event EthAddress)}
    (found : evm.contracts address = some contract)
    (ran : contract.exec moduleAddress caller method = some (ret, changed, events)) :
    Persists evm (evm.setContract address changed) := by
  -- A contract keeps its kind, and only those of the module are owned.
  cases contract with
  | minterBurner data token =>
    obtain ⟨⟨result, ledger, reported⟩, done, same⟩ := Option.bind_eq_some_iff.mp ran
    obtain ⟨-, same⟩ := Prod.mk.inj (Option.some.inj same)
    obtain ⟨rfl, -⟩ := Prod.mk.inj same
    exact .setContract fun _ _ => ⟨ledger.totalSupply, le_rfl⟩
  | standard issuer data token =>
    refine .replace ?_
    intro supply owns
    rw [found] at owns
    exact owns
  | hostile alive storage => simp [Contract.exec] at ran

theorem apply_persists {op : Op} (applied : evm.apply moduleAddress op = some (after, logs)) :
    Persists evm after := by
  -- Creation needs an address without code, which owns nothing.
  cases op with
  | call caller address method =>
    simp only [Evm.apply] at applied
    split_ifs at applied
    split at applied
    · obtain ⟨rfl, -⟩ := Prod.mk.inj (Option.some.inj applied)
      exact .refl evm
    · obtain ⟨rfl, -⟩ := Prod.mk.inj (Option.some.inj applied)
      exact .refl evm
    · rename_i found
      obtain ⟨⟨ret, changed, events⟩, ran, same⟩ := Option.bind_eq_some_iff.mp applied
      obtain ⟨rfl, -⟩ := Prod.mk.inj (Option.some.inj same)
      exact exec_persists found ran
  | run address alive storage emitted =>
    simp only [Evm.apply] at applied
    split at applied
    · rename_i found
      obtain ⟨rfl, -⟩ := Prod.mk.inj (Option.some.inj applied)
      exact .replace fun supply owns => by simp [found, Owns] at owns
    · cases applied
  | createStandard address issuer data =>
    simp only [Evm.apply] at applied
    split at applied
    · rename_i absent
      obtain ⟨rfl, -⟩ := Prod.mk.inj (Option.some.inj applied)
      exact .replace fun supply owns => by simp [absent, Owns] at owns
    · cases applied
  | createHostile address storage =>
    simp only [Evm.apply] at applied
    split at applied
    · rename_i absent
      obtain ⟨rfl, -⟩ := Prod.mk.inj (Option.some.inj applied)
      exact .replace fun supply owns => by simp [absent, Owns] at owns
    · cases applied

/-- A whole transaction of others. -/
theorem run_persists {ops : List Op} : ∀ {evm after : Evm} {logs : List Log},
    evm.run moduleAddress ops = some (after, logs) → Persists evm after := by
  induction ops with
  | nil =>
    intro evm after logs ran
    obtain ⟨rfl, -⟩ := Prod.mk.inj (Option.some.inj ran)
    exact .refl evm
  | cons op ops ih =>
    intro evm after logs ran
    obtain ⟨⟨middle, first⟩, applied, rest⟩ := Option.bind_eq_some_iff.mp ran
    obtain ⟨⟨last, second⟩, continued, same⟩ := Option.bind_eq_some_iff.mp rest
    obtain ⟨rfl, -⟩ := Prod.mk.inj (Option.some.inj same)
    exact (apply_persists applied).trans (ih continued)

theorem applyMessage_persists {program : Program} {caller address : EthAddress} {method : Method}
    {res : Response}
    (applied : evm.applyMessage moduleAddress program caller address method = .ok (res, after)) :
    Persists evm after := by
  -- There is no code, hostile code lets others act, or a token contract runs.
  rcases applyMessage_cases applied with ⟨-, -, rfl⟩ | ⟨alive, storage, ops, -, ran⟩ |
    ⟨contract, changed, events, found, ran, -, rfl⟩
  · exact .refl after
  · exact run_persists ran
  · exact exec_persists found ran

end Runs

section Messages

variable {moduleAddress : EthAddress} {evm after : Evm} {program : Program}
  {caller address : EthAddress}
  {res : Response} {amount : ℕ}

/-- Someone else transfers tokens to the module account, which are there afterwards. -/
theorem applyMessage_deposit (nonzero : moduleAddress ≠ 0) (other : caller ≠ moduleAddress)
    (unapproved : evm.Unapproved moduleAddress) (there : evm.contracts address ≠ none)
    (applied : evm.applyMessage moduleAddress program caller address
      (.token (.transfer moduleAddress amount)) = .ok (res, after)) :
    after.Unapproved moduleAddress ∧
      Evolves moduleAddress (Pi.single address amount) evm after := by
  rcases applyMessage_cases applied with ⟨absent, -⟩ | ⟨alive, storage, ops, found, ran⟩ |
    ⟨contract, changed, events, found, ran, -, rfl⟩
  · exact absurd absent there
  · obtain ⟨unapproved, evolves⟩ := run_evolves nonzero unapproved ran
    refine ⟨unapproved, ⟨?_, evolves.owns, evolves.present⟩⟩
    intro contract covered backs
    by_cases here : contract = address
    · -- Hostile code covers whatever it is said to have received.
      subst here
      rw [Pi.single_eq_same]
      exact evolves.covers (by rw [found]; trivial)
    · rw [Pi.single_eq_of_ne here, add_zero]
      exact evolves.covers backs
  · obtain ⟨unapproved, evolves⟩ := exec_evolves unapproved other nonzero found ran
    refine ⟨unapproved, ?_⟩
    -- The one event of a transfer reports the amount.
    have reported : (events.map (Token.Event.received moduleAddress)).sum = amount := by
      cases contract with
      | hostile alive storage => simp [Contract.exec] at ran
      | minterBurner data token =>
        simp only [Contract.exec, Contract.execToken, Token.exec, Option.bind_eq_bind,
          Option.bind_eq_some_iff, Option.some.injEq, Prod.mk.injEq] at ran
        obtain ⟨_, ⟨_, ⟨_, _, rfl⟩, _, rfl⟩, _, _, rfl⟩ := ran
        simp [Token.Event.received]
      | standard issuer data token =>
        simp only [Contract.exec, Contract.execToken, Token.exec, Option.bind_eq_bind,
          Option.bind_eq_some_iff, Option.some.injEq, Prod.mk.injEq] at ran
        obtain ⟨_, ⟨_, ⟨_, _, rfl⟩, _, rfl⟩, _, _, rfl⟩ := ran
        simp [Token.Event.received]
    have same : received moduleAddress (events.map (Log.ofEvent address)) =
        Pi.single address amount := by
      funext contract
      rw [received_events, reported, Pi.single_apply]
    rwa [same] at evolves

/-- The module account transfers tokens, and covers as much less as it transfers. -/
theorem applyMessage_withdraw {receiver : EthAddress} (nonzero : moduleAddress ≠ 0)
    (unapproved : evm.Unapproved moduleAddress)
    (applied : evm.applyMessage moduleAddress program moduleAddress address
      (.token (.transfer receiver amount)) = .ok (res, after)) :
    after.Unapproved moduleAddress ∧
      (∀ contract covered,
        Backs moduleAddress (covered + (Pi.single address amount : EthAddress → ℕ) contract)
          (evm.contracts contract) → Backs moduleAddress covered (after.contracts contract)) ∧
      (∀ contract supply, Owns supply (evm.contracts contract) →
        Owns supply (after.contracts contract)) ∧
      ∀ contract, evm.contracts contract ≠ none → after.contracts contract ≠ none := by
  rcases applyMessage_cases applied with ⟨-, -, rfl⟩ | ⟨alive, storage, ops, found, ran⟩ |
    ⟨contract, changed, events, found, ran, -, rfl⟩
  · refine ⟨unapproved, ?_, fun _ _ owns => owns, fun _ there => there⟩
    intro contract covered backs
    exact backs.mono (Nat.le_add_right _ _)
  · -- Hostile code cannot act for the module account.
    obtain ⟨unapproved, evolves⟩ := run_evolves nonzero unapproved ran
    refine ⟨unapproved, ?_, evolves.owns, evolves.present⟩
    intro contract covered backs
    exact evolves.covers (backs.mono (Nat.le_add_right _ _))
  · cases contract with
    | hostile alive storage => simp [Contract.exec] at ran
    | minterBurner data token =>
      simp only [Contract.exec, Contract.execToken, Token.exec, Option.bind_eq_bind,
        Option.bind_eq_some_iff, Option.some.injEq, Prod.mk.injEq] at ran
      obtain ⟨_, ⟨_, ⟨moved, done, rfl⟩, _, rfl⟩, _, rfl, _⟩ := ran
      -- A transfer keeps the supply of a contract of the module.
      have supply := (Token.move_eq_some done).2.2.1
      have evolves : Evolves moduleAddress 0 evm (evm.setContract address (.minterBurner data moved)) := by
        refine .setContract (fun _ _ => rfl) (fun _ _ => trivial) ?_
        intro bound owns
        rw [found] at owns
        exact supply.le.trans owns
      refine ⟨unapproved.setContract nofun, ?_, evolves.owns, evolves.present⟩
      intro contract covered backs
      exact evolves.covers (backs.mono (Nat.le_add_right _ _))
    | standard issuer data token =>
      simp only [Contract.exec, Contract.execToken, Token.exec, Option.bind_eq_bind,
        Option.bind_eq_some_iff, Option.some.injEq, Prod.mk.injEq] at ran
      obtain ⟨_, ⟨_, ⟨moved, done, rfl⟩, _, rfl⟩, _, rfl, _⟩ := ran
      -- A standard token is debited exactly the amount.
      obtain ⟨-, allowances, -, -, balance⟩ := Token.move_eq_some done
      refine ⟨unapproved.setContract ?_, ?_, ?_, ?_⟩
      · intro _ _ _ same
        obtain ⟨-, -, rfl⟩ := Contract.standard.inj same
        exact (unapproved address issuer data token found).congr allowances
      · intro contract covered backs
        by_cases here : contract = address
        · subst here
          rw [found, Pi.single_eq_same] at backs
          simp only [Evm.setContract, Function.update_self]
          change covered ≤ moved.balances moduleAddress
          change covered + amount ≤ token.balances moduleAddress at backs
          omega
        · rw [Pi.single_eq_of_ne here, add_zero] at backs
          simpa [Evm.setContract, here] using backs
      · intro contract supply owns
        by_cases here : contract = address
        · rw [here, found] at owns
          exact owns.elim
        · simpa [Evm.setContract, here] using owns
      · intro contract there
        by_cases here : contract = address
        · simp [here, Evm.setContract]
        · simpa [Evm.setContract, here] using there

/-- A message to a contract of the module changes only this contract's ledger. -/
theorem applyMessage_minterBurner {data : ERC20Data} {token : Token EthAddress} {method : Method}
    (found : evm.contracts address = some (.minterBurner data token))
    (applied : evm.applyMessage moduleAddress program moduleAddress address method =
      .ok (res, after)) :
    ∃ changed events, Contract.execToken true true data token moduleAddress method =
        some (res.ret, changed, events) ∧
      after = evm.setContract address (.minterBurner data changed) := by
  rcases applyMessage_cases applied with ⟨absent, -⟩ | ⟨alive, storage, ops, hostile, -⟩ |
    ⟨contract, changed, events, stored, ran, -, rfl⟩
  · rw [found] at absent
    cases absent
  · rw [found] at hostile
    cases hostile
  · rw [found] at stored
    obtain rfl := Option.some.inj stored
    obtain ⟨⟨ret, ledger, reported⟩, done, same⟩ := Option.bind_eq_some_iff.mp ran
    obtain ⟨rets, rest⟩ := Prod.mk.inj (Option.some.inj same)
    obtain ⟨rfl, -⟩ := Prod.mk.inj rest
    -- The caller is the module account, which may mint and burn.
    rw [decide_eq_true rfl] at done
    exact ⟨ledger, reported, by rw [done, rets], rfl⟩

end Messages

end Evmos
