import Evmos.Proofs.Feesplit.Payment

/-! When a stored withdrawer is not the deployer: as long as no message spells an address twice. -/

namespace Evmos.Feesplit

open Library

/-- Two texts for one address. -/
def Respelled (bech32 : Bech32) (text other : String) : Prop :=
  text ≠ other ∧ bech32.decode text = bech32.decode other

/-- A message names the deployer, or the withdrawer that is stored, in another spelling. -/
def Respells (k : Keeper) (s : State) : Call → Prop
  | .register _ msg => Respelled k.bech32 msg.withdrawerAddress msg.deployerAddress
  | .update msg => ∃ feeSplit, s.getFeeSplit (hexToAddress msg.contractAddress) = some feeSplit ∧
    (Respelled k.bech32 msg.withdrawerAddress feeSplit.deployerAddress ∨
      Respelled k.bech32 msg.withdrawerAddress feeSplit.withdrawerAddress)
  | _ => False

/-- The withdrawer of a fee split is the default, or another account than the deployer. -/
def FeeSplit.Apart (bech32 : Bech32) (feeSplit : FeeSplit) : Prop :=
  feeSplit.withdrawerAddress = "" ∨ ∃ withdrawer,
    bech32.decode feeSplit.withdrawerAddress = some withdrawer ∧
      bech32.decode feeSplit.deployerAddress ≠ some withdrawer

/-- No stored withdrawer is the deployer. -/
def AllApart (k : Keeper) (s : State) : Prop :=
  ∀ contract feeSplit, s.getFeeSplit contract = some feeSplit → feeSplit.Apart k.bech32

/-- An update changes who is paid for its contract. -/
def ChangesPayee (k : Keeper) (s after : State) (call : Call) : Prop :=
  ∀ msg, call = .update msg →
    after.payee k (hexToAddress msg.contractAddress) ≠ s.payee k (hexToAddress msg.contractAddress)

section Steps

variable {k : Keeper} {s after : State}

theorem newFeeSplit_apart_iff {contract : EthAddress} {deployer : Address}
    {withdrawer : Option Address} :
    (newFeeSplit k.bech32 k.format contract deployer withdrawer).Apart k.bech32 ↔
      withdrawer ≠ some deployer := by
  cases withdrawer with
  | none => exact ⟨fun _ => by simp, fun _ => .inl rfl⟩
  | some withdrawer =>
    -- An encoded address is never the empty text of an absent withdrawer.
    have named := ne_empty_of_decode (k.bech32.decode_encode withdrawer)
    simp [FeeSplit.Apart, newFeeSplit, k.bech32.decode_encode, named, eq_comm]

/-- A registration keeps all withdrawers apart unless it spells the deployer twice. -/
theorem register_apart_iff {account : EthAddress → Option EvmAccount} {msg : MsgRegisterFeeSplit}
    (apart : AllApart k s) (registered : registerFeeSplit k account s msg = .ok after) :
    AllApart k after ↔ ¬ Respelled k.bech32 msg.withdrawerAddress msg.deployerAddress := by
  obtain ⟨deployer, withdrawer, step⟩ := registerFeeSplit_ok registered
  have written := forall_written_iff (fun _ feeSplit => feeSplit.Apart k.bech32)
    (congrArg State.feeSplits step.result) apart
  rw [AllApart, written, newFeeSplit_apart_iff, step.named, Respelled, step.decoded]
  -- Equal texts are dropped by the handler, so only other spellings are left.
  by_cases same : msg.withdrawerAddress = msg.deployerAddress
  · simp [same]
  · simp [same]

theorem update_differs {msg : MsgUpdateFeeSplit} {feeSplit : FeeSplit} {withdrawerAddress : String}
    (updated : updateFeeSplit k s msg = .ok after)
    (step : Updated k s msg after feeSplit withdrawerAddress) :
    withdrawerAddress ≠ feeSplit.withdrawerAddress := by
  -- The handler refuses an update to the text that is stored.
  intro same
  simp only [updateFeeSplit, step.enabled, step.found, step.signed, ← step.named, same,
    Bool.not_true, Bool.false_eq_true, if_false, if_true, ne_eq, not_true_eq_false] at updated
  cases updated

/-- An update names another account, and pays another one, unless it spells one of them twice. -/
theorem update_apart_iff {msg : MsgUpdateFeeSplit} (indexed : Indexed k s) (apart : AllApart k s)
    (spelled : AllSpelled k s) (valid : msg.validateBasic k.bech32 = .ok ())
    (updated : updateFeeSplit k s msg = .ok after) :
    AllApart k after ∧ ChangesPayee k s after (.update msg) ↔ ¬ Respells k s (.update msg) := by
  obtain ⟨feeSplit, withdrawerAddress, step⟩ := updateFeeSplit_ok updated
  have differs := update_differs updated step
  obtain ⟨deployer, decoded⟩ := (spelled _ _ step.found).deployer
  obtain ⟨⟨⟩, -, checked⟩ := bind_eq_ok.mp valid
  obtain ⟨withdrawer, named⟩ := validateAccAddress_ok (wrap_eq_ok.mp checked)
  have stores : after.feeSplits = s.feeSplits.set (hexToAddress msg.contractAddress)
      { feeSplit with withdrawerAddress := withdrawerAddress } := by
    rw [step.result, indexed.placed _ _ step.found]
  have written := forall_written_iff (fun _ feeSplit => feeSplit.Apart k.bech32) stores apart
  have found : after.getFeeSplit (hexToAddress msg.contractAddress) =
      some { feeSplit with withdrawerAddress := withdrawerAddress } := by
    rw [State.getFeeSplit, stores, Store.get?_set_self]
  have respells : Respells k s (.update msg) ↔
      Respelled k.bech32 msg.withdrawerAddress feeSplit.deployerAddress ∨
        Respelled k.bech32 msg.withdrawerAddress feeSplit.withdrawerAddress := by
    simp [Respells, step.found]
  have changes : ChangesPayee k s after (.update msg) ↔
      (k.bech32.decode withdrawerAddress).getD deployer ≠
        (k.bech32.decode feeSplit.withdrawerAddress).getD deployer := by
    simp [ChangesPayee, payee_of_found step.found decoded, payee_of_found found decoded]
  rw [AllApart, written, changes, respells, Respelled, Respelled, decoded, named]
  by_cases default : msg.withdrawerAddress = feeSplit.deployerAddress
  · -- Going back to the default is a change, since a withdrawer that was named is apart.
    have blank : withdrawerAddress = "" := by rw [step.named, if_pos default]
    subst blank
    obtain ⟨other, stored, elsewhere⟩ := (apart _ _ step.found).resolve_left (Ne.symm differs)
    rw [decoded, ne_eq, Option.some.injEq] at elsewhere
    have own : withdrawer = deployer := by
      rw [default, decoded] at named
      exact (Option.some.inj named).symm
    simp [FeeSplit.Apart, default, k.decode_empty, stored, own, elsewhere]
  · -- The text is stored as it is, so it decides about both.
    have kept : withdrawerAddress = msg.withdrawerAddress := by rw [step.named, if_neg default]
    subst kept
    have filled := ne_empty_of_decode named
    rcases stored : k.bech32.decode feeSplit.withdrawerAddress with _ | old
    · simp [FeeSplit.Apart, default, filled, named, decoded, differs, eq_comm]
    · simp [FeeSplit.Apart, default, filled, named, decoded, differs, eq_comm]

/-- A step keeps the withdrawers apart and changes the payee, unless it spells an address twice. -/
theorem step_apart_iff {call : Call} (indexed : Indexed k s) (apart : AllApart k s)
    (spelled : AllSpelled k s) (taken : Step k s call after) :
    AllApart k after ∧ ChangesPayee k s after call ↔ ¬ Respells k s call := by
  cases taken with
  | register _ registered =>
    rw [register_apart_iff apart registered]
    exact ⟨And.left, fun once => ⟨once, by rintro _ ⟨⟩⟩⟩
  | update valid updated => exact update_apart_iff indexed apart spelled valid updated
  -- The other steps write no withdrawer, and are asked for no payee.
  | cancel _ cancelled =>
    obtain ⟨feeSplit, deployer, step⟩ := cancelFeeSplit_ok cancelled
    have kept := forall_deleted (congrArg State.feeSplits step.result) apart
    exact ⟨fun _ => id, fun _ => ⟨kept, by rintro _ ⟨⟩⟩⟩
  | postTx processed =>
    have kept := forall_same (postTxProcessing_keeps processed).1 apart
    exact ⟨fun _ => id, fun _ => ⟨kept, by rintro _ ⟨⟩⟩⟩
  | others => exact ⟨fun _ => id, fun _ => ⟨forall_same rfl apart, by rintro _ ⟨⟩⟩⟩

end Steps

/-- The steps in which no message spells an address twice. -/
def SpelledOnce (k : Keeper) : State → Call → State → Prop :=
  Guarded (fun s call => ¬ Respells k s call) (Step k)

theorem SpelledOnce.run {k : Keeper} {params : Params} {bank : Bank} {calls : List Call}
    {reached : State} (run : Run (SpelledOnce k) (State.empty params bank) calls reached) :
    AllApart k reached := by
  -- What else a step needs is true of every run, so the induction is on the run itself.
  induction run with
  | start => exact forall_empty params bank
  | extend earlier taken ih =>
    have indexed := Indexed.run earlier.unguarded
    have spelled := AllSpelled.run earlier.unguarded
    exact ((step_apart_iff indexed ih spelled taken.2).mpr taken.1).1

/--
A stored withdrawer is not the deployer as long as no message spells an address twice.

Until then the default withdrawer is stored as an empty text only. The next message that is accepted
keeps this, and changes the payee if it is an update, exactly when it does not name the deployer or
the stored withdrawer in another spelling.
-/
theorem withdrawer_is_not_deployer_iff (k : Keeper) {params : Params} {bank : Bank}
    {calls : List Call} {reached : State}
    (run : Run (SpelledOnce k) (State.empty params bank) calls reached) :
    (∀ contract feeSplit, reached.getFeeSplit contract = some feeSplit →
      feeSplit.Apart k.bech32 ∧
        (reached.payee k contract = k.bech32.decode feeSplit.deployerAddress ↔
          feeSplit.withdrawerAddress = "")) ∧
    ∀ call after, Step k reached call after →
      (AllApart k after ∧ ChangesPayee k reached after call ↔ ¬ Respells k reached call) := by
  have apart := SpelledOnce.run run
  have indexed := Indexed.run run.unguarded
  have spelled := AllSpelled.run run.unguarded
  refine ⟨fun contract feeSplit found => ⟨apart contract feeSplit found, ?_⟩,
    fun call after taken => step_apart_iff indexed apart spelled taken⟩
  obtain ⟨deployer, decoded⟩ := (spelled contract feeSplit found).deployer
  rw [payee_of_found found decoded, decoded, Option.some.injEq]
  rcases apart contract feeSplit found with blank | ⟨withdrawer, named, elsewhere⟩
  · simp [blank, k.decode_empty]
  · -- A named withdrawer is paid itself, and its text is not empty.
    have filled := ne_empty_of_decode named
    rw [decoded, ne_eq, Option.some.injEq] at elsewhere
    simp [named, filled, Ne.symm elsewhere]

/-- An update of the registration to a third account. -/
def rerouting : MsgUpdateFeeSplit where
  contractAddress := "0x0000000000000000000000000000000000000003"
  deployerAddress := "qq"
  withdrawerAddress := "qqqq"

/-- Naming another account in its only spelling changes the payee. -/
theorem rerouting_changes_payee : ∃ reached after,
    Run (SpelledOnce Keeper.plain) unregistered [.register thirdDeployed loudRegistration] reached ∧
    updateFeeSplit Keeper.plain reached rerouting = .ok after ∧
    after.payee Keeper.plain 3 ≠ reached.payee Keeper.plain 3 := by
  have ran : (registerFeeSplit Keeper.plain thirdDeployed unregistered loudRegistration >>=
      fun reached => (updateFeeSplit Keeper.plain reached rerouting).map
        fun _ => reached.feeSplits.entries) =
      .ok [(3, ⟨"0x0000000000000000000000000000000000000003", "qq", "qqq"⟩)] := by
    decide +kernel
  obtain ⟨reached, registered, ran⟩ := bind_eq_ok.mp ran
  obtain ⟨after, updated, entries⟩ := map_eq_ok.mp ran
  -- Deployer and withdrawer of the registration are different accounts.
  have once : ¬ Respells Keeper.plain unregistered (.register thirdDeployed loudRegistration) := by
    rintro ⟨-, same⟩
    exact absurd same (by decide)
  have run : Run (SpelledOnce Keeper.plain) unregistered
      [.register thirdDeployed loudRegistration] reached :=
    Run.start.extend ⟨once, .register (by decide +kernel) registered⟩
  have spelled : ¬ Respells Keeper.plain reached (.update rerouting) := by
    rintro ⟨feeSplit, found, respelled⟩
    have member := Store.get?_eq_some.mp found
    rw [entries, List.mem_singleton, Prod.mk.injEq] at member
    rw [member.2] at respelled
    -- The new withdrawer is neither the one before it nor the deployer.
    rcases respelled with ⟨-, same⟩ | ⟨-, same⟩
    · exact absurd same (by decide)
    · exact absurd same (by decide)
  have effective := ((withdrawer_is_not_deployer_iff Keeper.plain run).2 _ after
    (.update (by decide +kernel) updated)).mpr spelled
  exact ⟨reached, after, run, updated, effective.2 rerouting rfl⟩

/-- A registration that names the deployer as the withdrawer, in the other case. -/
def namesakeRegistration : MsgRegisterFeeSplit where
  contractAddress := "0x0000000000000000000000000000000000000003"
  deployerAddress := "qq"
  withdrawerAddress := "QQ"
  nonces := [1]

/-- In the other case the deployer becomes the withdrawer, and an update pays who was paid before. -/
theorem respelled_withdrawer_is_deployer :
    (∃ reached, Run (Step Keeper.plain) unregistered
        [.register thirdDeployed namesakeRegistration] reached ∧
      ∃ feeSplit, reached.getFeeSplit 3 = some feeSplit ∧ feeSplit.withdrawerAddress = "qq" ∧
        Keeper.plain.bech32.decode feeSplit.withdrawerAddress =
          Keeper.plain.bech32.decode feeSplit.deployerAddress) ∧
    ∃ reached after, Run (Step Keeper.plain) unregistered
        [.register thirdDeployed loudRegistration] reached ∧
      Step Keeper.plain reached (.update respelling) after ∧
      after.payee Keeper.plain 3 = reached.payee Keeper.plain 3 := by
  -- The source compares texts, and two texts spell the deployer here.
  have named : (registerFeeSplit Keeper.plain thirdDeployed unregistered namesakeRegistration).map
      (fun reached => reached.getFeeSplit 3) =
      .ok (some ⟨"0x0000000000000000000000000000000000000003", "qq", "qq"⟩) := by
    decide +kernel
  obtain ⟨reached, registered, stored⟩ := map_eq_ok.mp named
  have ran : (registerFeeSplit Keeper.plain thirdDeployed unregistered loudRegistration >>=
      fun first => (updateFeeSplit Keeper.plain first respelling).map
        fun after => (first.payee Keeper.plain 3, after.payee Keeper.plain 3)) =
      .ok (some 2, some 2) := by
    decide +kernel
  obtain ⟨first, loud, ran⟩ := bind_eq_ok.mp ran
  obtain ⟨after, updated, payees⟩ := map_eq_ok.mp ran
  simp only [Prod.mk.injEq] at payees
  refine ⟨⟨reached, Run.start.extend (.register (by decide +kernel) registered), _, stored, rfl, rfl⟩,
    first, after, Run.start.extend (.register (by decide +kernel) loud),
    .update (by decide +kernel) updated, payees.2.trans payees.1.symm⟩

end Evmos.Feesplit
