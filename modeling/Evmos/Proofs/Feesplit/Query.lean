import Evmos.Feesplit.Query
import Evmos.Proofs.Feesplit.Index

/-! When the queries list exactly the contracts of an account: all keys are its own, and fit a page. -/

namespace Evmos.Feesplit

open Library

/-- A list has the contracts whose fee splits name an account, and each of them once. -/
structure ListsExactly (k : Keeper) (s : State) (account : FeeSplit → Option Address)
    (address : Address) (listed : List String) : Prop where
  once : listed.Nodup
  mem : ∀ text, text ∈ listed ↔ ∃ contract feeSplit, s.getFeeSplit contract = some feeSplit ∧
    account feeSplit = some address ∧ k.format.spell contract = text

/-- How many stored fee splits name an account. -/
def State.owned (s : State) (account : FeeSplit → Option Address) (address : Address) : ℕ :=
  s.feeSplits.entries.countP fun entry => account entry.2 = some address

/-- No key of another account begins with the bytes of an account. -/
def Separated (k : Keeper) (s : State) (account : FeeSplit → Option Address) (address : Address) :
    Prop :=
  ∀ contract feeSplit other, s.getFeeSplit contract = some feeSplit →
    account feeSplit = some other → k.addressBytes.bytes address <+: mapKey k other contract →
    other = address

section Listing

variable {k : Keeper} {s : State} {index : Store (List Byte) Unit}
  {account : FeeSplit → Option Address} {address : Address}

/-- A scan finds the remainders of the keys of stored fee splits. -/
theorem mem_scan_iff
    (exact : Indexes (fun contract feeSplit => mapKey? k contract (account feeSplit)) index
      s.feeSplits) {rest : List Byte} :
    rest ∈ index.scan (k.addressBytes.bytes address) ↔
      ∃ contract feeSplit other, s.getFeeSplit contract = some feeSplit ∧
        account feeSplit = some other ∧
        k.addressBytes.bytes address ++ rest = mapKey k other contract := by
  -- An exact index holds the keys of the stored fee splits and no others.
  rw [Store.mem_scan, exact]
  constructor
  · rintro ⟨contract, key⟩
    obtain ⟨feeSplit, found, key⟩ := Option.bind_eq_some_iff.mp key
    obtain ⟨other, named, equal⟩ := mapKey?_eq_some.mp key
    exact ⟨contract, feeSplit, other, found, named, equal.symm⟩
  · rintro ⟨contract, feeSplit, other, found, named, equal⟩
    refine ⟨contract, ?_⟩
    rw [indexKeyAt_of_found found, named, equal]
    rfl

/-- Without other keys, the remainder of each key is the whole of a contract of the account. -/
theorem Separated.mem_scan_iff
    (exact : Indexes (fun contract feeSplit => mapKey? k contract (account feeSplit)) index
      s.feeSplits) (separated : Separated k s account address)
    (rest : List Byte) :
    rest ∈ index.scan (k.addressBytes.bytes address) ↔
      ∃ contract feeSplit, s.getFeeSplit contract = some feeSplit ∧
        account feeSplit = some address ∧ contract.toBytes = rest := by
  rw [Feesplit.mem_scan_iff exact]
  constructor
  · rintro ⟨contract, feeSplit, other, found, named, equal⟩
    -- A key below the bytes of the account is a key of the account itself.
    obtain rfl := separated contract feeSplit other found named ⟨rest, equal⟩
    exact ⟨contract, feeSplit, found, named, (List.append_cancel_left equal).symm⟩
  · rintro ⟨contract, feeSplit, found, named, rfl⟩
    exact ⟨contract, feeSplit, address, found, named, rfl⟩

/-- The listing of an account is exact when no other key begins with its bytes, and only then. -/
theorem listsExactly_scan_iff
    (exact : Indexes (fun contract feeSplit => mapKey? k contract (account feeSplit)) index
      s.feeSplits) (address : Address) :
    ListsExactly k s account address ((index.scan (k.addressBytes.bytes address)).map fun key =>
        k.format.spell (bytesToAddress key)) ↔
      Separated k s account address := by
  constructor
  · rintro ⟨once, mem⟩ contract feeSplit other found named ⟨rest, equal⟩
    -- The key is listed as some contract, which must be one of the account's own.
    have scanned := (mem_scan_iff exact).mpr ⟨contract, feeSplit, other, found, named, equal⟩
    obtain ⟨own, content, stored, owned, spelled⟩ :=
      (mem _).mp (List.mem_map.mpr ⟨rest, scanned, rfl⟩)
    have ownScanned : own.toBytes ∈ index.scan (k.addressBytes.bytes address) :=
      (mem_scan_iff exact).mpr ⟨own, content, address, stored, owned, rfl⟩
    -- That contract is listed for its own key already, so both keys are the same.
    have same : rest = own.toBytes :=
      List.inj_on_of_nodup_map once scanned ownScanned (by rw [bytesToAddress_toBytes, spelled])
    rw [same] at equal
    exact (mapKey_injective equal).1.symm
  · intro separated
    have whole := separated.mem_scan_iff exact
    refine ⟨(index.nodup_scan _).map_on ?_, fun text => ?_⟩
    · intro rest member second other same
      obtain ⟨contract, -, -, -, rfl⟩ := (whole rest).mp member
      obtain ⟨again, -, -, -, rfl⟩ := (whole second).mp other
      rw [bytesToAddress_toBytes, bytesToAddress_toBytes] at same
      rw [k.format.spell_injective same]
    · rw [List.mem_map]
      constructor
      · rintro ⟨rest, member, rfl⟩
        obtain ⟨contract, feeSplit, found, named, rfl⟩ := (whole rest).mp member
        exact ⟨contract, feeSplit, found, named, by rw [bytesToAddress_toBytes]⟩
      · rintro ⟨contract, feeSplit, found, named, rfl⟩
        exact ⟨_, (whole _).mpr ⟨contract, feeSplit, found, named, rfl⟩,
          by rw [bytesToAddress_toBytes]⟩

/-- The stored fee splits of an account, spelled one by one, are such a list. -/
theorem listsExactly_owned (k : Keeper) (s : State) (account : FeeSplit → Option Address)
    (address : Address) :
    ListsExactly k s account address
      ((s.feeSplits.entries.filter fun entry => account entry.2 = some address).map fun entry =>
        k.format.spell entry.1) where
  once := by
    -- Contracts are the keys of the store, and no two are spelled alike.
    have keys := s.feeSplits.nodup_keys.map k.format.spell_injective
    rw [List.map_map] at keys
    exact keys.sublist (List.filter_sublist.map _)
  mem text := by
    simp only [List.mem_map, List.mem_filter, decide_eq_true_eq, Prod.exists, State.getFeeSplit,
      Store.get?_eq_some, and_assoc]

/-- All such lists have as many contracts as there are fee splits of the account. -/
theorem ListsExactly.length_eq {listed : List String}
    (exact : ListsExactly k s account address listed) :
    listed.length = s.owned account address := by
  have owned := listsExactly_owned k s account address
  -- Two such lists have the same members, each of them once.
  have same := (List.perm_ext_iff_of_nodup exact.once owned.once).mpr fun text =>
    (exact.mem text).trans (owned.mem text).symm
  rw [same.length_eq, List.length_map, State.owned, List.countP_eq_length_filter]

theorem accountFeeSplits_eq {emptyText formatText text : String} {page : PageRequest}
    (visible : isBlank text = false) (decoded : k.bech32.decode text = some address)
    (start : page.offset = 0) :
    accountFeeSplits k index emptyText formatText (some ⟨text, page⟩) =
      .ok (((index.scan (k.addressBytes.bytes address)).map fun key =>
        k.format.spell (bytesToAddress key)).take page.size) := by
  simp only [accountFeeSplits, visible, Bool.false_eq_true, if_false, decoded, PageRequest.select,
    start, List.drop_zero, List.map_take]

/-- What one of the two queries answers to a request for the first page. -/
structure Answers (k : Keeper) (s : State) (index : Store (List Byte) Unit)
    (account : FeeSplit → Option Address) (address : Address) (page : PageRequest)
    (listed : List String) : Prop where
  -- If all keys below the bytes of the account fit the page, they decide.
  fits : (index.scan (k.addressBytes.bytes address)).length ≤ page.size →
    (ListsExactly k s account address listed ↔ Separated k s account address)
  -- If all of them are its own, their number does.
  separated : Separated k s account address →
    (ListsExactly k s account address listed ↔ s.owned account address ≤ page.size)

theorem answers_take
    (exact : Indexes (fun contract feeSplit => mapKey? k contract (account feeSplit)) index
      s.feeSplits) (address : Address) (page : PageRequest) :
    Answers k s index account address page
      (((index.scan (k.addressBytes.bytes address)).map fun key =>
        k.format.spell (bytesToAddress key)).take page.size) where
  fits large := by
    rw [List.take_of_length_le (by rwa [List.length_map])]
    exact listsExactly_scan_iff exact address
  separated separated := by
    have whole := (listsExactly_scan_iff exact address).mpr separated
    constructor
    · -- A list that is cut off has no more than the page.
      intro cut
      rw [← cut.length_eq]
      exact List.length_take_le _ _
    · intro few
      rw [← whole.length_eq] at few
      rw [List.take_of_length_le few]
      exact whole

end Listing

/--
The queries are exact for an account, if no other key begins with its bytes and a page has room.

Keys are made of an account and a contract without a mark between them. An account that continues
another one, or that continues into the contracts of another one, shares the beginning of its keys.
A request without pagination is answered with the first hundred.
-/
theorem queries_exact_iff (k : Keeper) {params : Params} {bank : Bank} {calls : List Call}
    {reached : State} (run : Run (Step k) (State.empty params bank) calls reached)
    (address : Address) (text : String) (visible : isBlank text = false)
    (decoded : k.bech32.decode text = some address) (page : PageRequest) (start : page.offset = 0) :
    (∃ listed, withdrawerFeeSplits k reached (some ⟨text, page⟩) = .ok listed ∧
      Answers k reached reached.withdrawerMap
        (fun feeSplit => k.bech32.decode feeSplit.withdrawerAddress) address page listed) ∧
    ∃ listed, deployerFeeSplits k reached (some ⟨text, page⟩) = .ok listed ∧
      Answers k reached reached.deployerMap
        (fun feeSplit => k.bech32.decode feeSplit.deployerAddress) address page listed := by
  -- On every run both indexes are exact, so the scans decide.
  have indexed := Indexed.run run
  exact ⟨⟨_, accountFeeSplits_eq visible decoded start,
      answers_take indexed.withdrawers address page⟩,
    ⟨_, accountFeeSplits_eq visible decoded start, answers_take indexed.deployers address page⟩⟩

/-- Accounts of one length are separated, since none of them continues another one. -/
theorem separated_of_lengths {k : Keeper} {s : State} {account : FeeSplit → Option Address}
    {address : Address}
    (lengths : ∀ contract feeSplit other, s.getFeeSplit contract = some feeSplit →
      account feeSplit = some other →
      (k.addressBytes.bytes other).length = (k.addressBytes.bytes address).length) :
    Separated k s account address := by
  rintro contract feeSplit other found named ⟨rest, equal⟩
  -- The key begins with an account of the same length, which is then the account.
  have same := lengths contract feeSplit other found named
  exact k.addressBytes.injective (List.append_inj equal same.symm).1.symm

/-- With accounts of twenty bytes, the query lists the contract of the registration. -/
theorem twenty_bytes_listed : ∃ reached listed,
    Run (Step Keeper.plain) unregistered [.register thirdDeployed loudRegistration] reached ∧
    withdrawerFeeSplits Keeper.plain reached (some ⟨"qqq", ⟨0, 0⟩⟩) = .ok listed ∧
    "0x0000000000000000000000000000000000000003" ∈ listed ∧ listed.Nodup := by
  have ran : (registerFeeSplit Keeper.plain thirdDeployed unregistered loudRegistration).map
      (fun reached => (reached.feeSplits.entries, reached.withdrawerMap.entries.length)) =
      .ok ([(3, ⟨"0x0000000000000000000000000000000000000003", "qq", "qqq"⟩)], 1) := by
    decide +kernel
  obtain ⟨reached, registered, seen⟩ := map_eq_ok.mp ran
  simp only [Prod.mk.injEq] at seen
  obtain ⟨entries, withdrawers⟩ := seen
  have run : Run (Step Keeper.plain) unregistered [.register thirdDeployed loudRegistration]
      reached := Run.start.extend (.register (by decide +kernel) registered)
  obtain ⟨listed, answer, answers⟩ := (queries_exact_iff Keeper.plain run 2 "qqq" (by decide)
    (by decide) ⟨0, 0⟩ rfl).1
  -- One key fits the page of a hundred.
  have fits : (reached.withdrawerMap.scan (Keeper.plain.addressBytes.bytes 2)).length ≤ 100 :=
    (reached.withdrawerMap.length_scan_le _).trans (by rw [withdrawers]; decide)
  -- The one fee split that is stored names the withdrawer that is asked for.
  have separated : Separated Keeper.plain reached
      (fun feeSplit => Keeper.plain.bech32.decode feeSplit.withdrawerAddress) 2 := by
    refine separated_of_lengths fun contract feeSplit other found named => ?_
    have member := Store.get?_eq_some.mp found
    rw [entries, List.mem_singleton, Prod.mk.injEq] at member
    rw [member.2] at named
    obtain rfl : 2 = other := Option.some.inj ((by decide : _ = some 2).symm.trans named)
    rfl
  obtain ⟨once, mem⟩ := (answers.fits fits).mpr separated
  refine ⟨reached, listed, run, answer, (mem _).mpr ⟨3,
    ⟨"0x0000000000000000000000000000000000000003", "qq", "qqq"⟩, Store.get?_eq_some.mpr ?_,
    by decide, by decide⟩, once⟩
  rw [entries]
  exact List.mem_singleton_self _

/-- A codec for evaluation, with another letter for the addresses that are longer. -/
def longLetters : Bech32 where
  decode text :=
    if text ≠ "" ∧ text.toList.all (· = 'q') then some (text.toList.length - 1)
    else if text ≠ "" ∧ text.toList.all (· = 'l') then some (2 ^ 160 + (text.toList.length - 1))
    else none
  encode address :=
    if address < 2 ^ 160 then String.ofList (List.replicate (address + 1) 'q')
    else String.ofList (List.replicate (address - 2 ^ 160 + 1) 'l')
  decode_encode address := by
    have filled : ∀ count letter, String.ofList (List.replicate (count + 1) letter) ≠ "" := by
      intro count letter blank
      simpa using congrArg String.length blank
    by_cases short : address < 2 ^ 160
    · rw [if_pos short, if_pos ⟨filled address 'q', by simp⟩]
      simp
    · rw [if_neg short, if_neg (by simp), if_pos ⟨filled (address - 2 ^ 160) 'l', by simp⟩,
        String.toList_ofList, List.length_replicate, Nat.add_sub_cancel,
        Nat.add_sub_of_le (not_lt.mp short)]

/-- The bytes of a number below `2 ^ 160`, and a zero after them for each time it is above. -/
def trailingZeros : AddressBytes where
  bytes address := bigEndian 20 (address % 2 ^ 160) ++ bigEndian (address / 2 ^ 160) 0
  injective := by
    intro first second same
    obtain ⟨low, high⟩ := List.append_inj same (by simp)
    have high : first / 2 ^ 160 = second / 2 ^ 160 := by
      simpa using congrArg List.length high
    have low := congrArg (ofBigEndian 0) low
    have size : 256 ^ 20 = 2 ^ 160 := by norm_num
    rw [ofBigEndian_bigEndian, ofBigEndian_bigEndian, size, Nat.mod_mod, Nat.mod_mod,
      Nat.add_left_cancel_iff] at low
    rw [← Nat.div_add_mod first (2 ^ 160), ← Nat.div_add_mod second (2 ^ 160), low, high]
  bytes_eth address := by
    have small := address.isLt
    rw [EthAddress.bytes, Nat.mod_eq_of_lt small, Nat.div_eq_of_lt small, bigEndian,
      List.append_nil, EthAddress.toBytes]

/-- A keeper for evaluation, with accounts of twenty bytes and of more. -/
def longKeeper : Keeper :=
  { Keeper.plain with bech32 := longLetters, decode_empty := rfl, addressBytes := trailingZeros }

/-- A registration by an account of twenty-one bytes, with a withdrawer of as many. -/
def longRegistration : MsgRegisterFeeSplit where
  contractAddress := "0x0000000000000000000000000000000000000102"
  deployerAddress := "ll"
  withdrawerAddress := "lll"
  nonces := [1]

/-- Accounts of the EVM of which only the one that is registered has code. -/
def longDeployed (address : EthAddress) : Option EvmAccount :=
  some (if address = 258 then .contract else .external)

/-- The contract of longer accounts is listed for the shorter ones that they continue. -/
theorem shorter_account_lists_contract : ∃ reached,
    Run (Step longKeeper) unregistered [.register longDeployed longRegistration] reached ∧
    reached.feeSplits.entries =
      [(258, ⟨"0x0000000000000000000000000000000000000102", "ll", "lll"⟩)] ∧
    longKeeper.bech32.decode "ll" ≠ longKeeper.bech32.decode "qq" ∧
    longKeeper.bech32.decode "lll" ≠ longKeeper.bech32.decode "qqq" ∧
    deployerFeeSplits longKeeper reached (some ⟨"qq", ⟨0, 0⟩⟩) =
      .ok ["0x0000000000000000000000000000000000000102"] ∧
    withdrawerFeeSplits longKeeper reached (some ⟨"qqq", ⟨0, 0⟩⟩) =
      .ok ["0x0000000000000000000000000000000000000102"] := by
  -- The reached state is long, so the run and both queries are evaluated together.
  have ran : (registerFeeSplit longKeeper longDeployed unregistered longRegistration).map
      (fun reached => (reached.feeSplits.entries,
        deployerFeeSplits longKeeper reached (some ⟨"qq", ⟨0, 0⟩⟩),
        withdrawerFeeSplits longKeeper reached (some ⟨"qqq", ⟨0, 0⟩⟩))) =
      .ok ([(258, ⟨"0x0000000000000000000000000000000000000102", "ll", "lll"⟩)],
        .ok ["0x0000000000000000000000000000000000000102"],
        .ok ["0x0000000000000000000000000000000000000102"]) := by
    decide +kernel
  obtain ⟨reached, registered, seen⟩ := map_eq_ok.mp ran
  simp only [Prod.mk.injEq] at seen
  exact ⟨reached, Run.start.extend (.register (by decide +kernel) registered), seen.1,
    by decide, by decide, seen.2.1, seen.2.2⟩

end Evmos.Feesplit
