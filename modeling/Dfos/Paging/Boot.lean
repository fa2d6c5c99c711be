import Dfos.Paging.Lookup

/-!
# The tables after `paging_init`

The bootstrap tables present the direct map and leave the dynamic region
empty, and write protection takes no page away.
-/

namespace Dfos.Paging

open Dfos.Lib
open Dfos.Pmm (pageSize PmmState)

variable {layout : Layout}

/-! ## Filling tables -/

section Filling

variable {m : WordMemory} {base n : Nat} {f : Nat → Nat → Nat}

theorem fillTables_word {d i : Nat} (table : d < n) (entry : i < 512) :
    fillTables base f n m (WordMemory.word (base + pageSize * d) i) = f d i := by
  induction n with
  | zero => omega
  | succ n ih =>
      unfold fillTables
      by_cases last : d = n
      · rw [last]
        exact WordMemory.fill_word entry
      · rw [WordMemory.fill_outside, ih (by omega)]
        unfold WordMemory.word pageSize
        omega

theorem fillTables_outside {a : Nat} (outside : Apart (a, 8) (base, 4096 * n)) :
    fillTables base f n m a = m a := by
  unfold Apart at outside
  dsimp only at outside
  induction n with
  | zero => rfl
  | succ n ih =>
      have before := ih (by omega)
      unfold fillTables
      rw [WordMemory.fill_outside, before]
      unfold paePteEntries pageSize
      omega

theorem fill_apart {a k : Nat} {g : Nat → Nat} (outside : Apart (a, 8) (base, 8 * k)) :
    m.fill base g k a = m a := by
  apply WordMemory.fill_outside
  unfold Apart at outside
  dsimp only at outside
  omega

end Filling

/-! ## Words of the static tables -/

theorem Apart.symm {a b : Nat × Nat} (apart : Apart a b) : Apart b a := Or.symm apart

/-- A part of a range is apart from what the range is apart from. -/
theorem Apart.mono {b n a k : Nat} {r : Nat × Nat} (apart : Apart (b, n) r) (low : b ≤ a)
    (high : a + k ≤ b + n) : Apart (a, k) r := by
  unfold Apart at *
  omega

/-- The identity tables lie apart from the kernel's, from the rest and each other. -/
theorem Layout.identity_apart (layout : Layout) :
    (Apart (layout.kernelDirectory, 4096) (layout.identityDirectory, 4096) ∧
      Apart (layout.dynamicTables, 126 * 4096) (layout.identityDirectory, 4096) ∧
      Apart (layout.kernelDirectory, 4096) (layout.identityTables, 2 * 4096) ∧
      Apart (layout.dynamicTables, 126 * 4096) (layout.identityTables, 2 * 4096)) ∧
    Apart (layout.pdpt, 32) (layout.identityDirectory, 4096) ∧
      Apart (layout.pdpt, 32) (layout.identityTables, 2 * 4096) ∧
      Apart (layout.identityDirectory, 4096) (layout.identityTables, 2 * 4096) ∧
      Apart (layout.identityDirectory, 4096) (layout.directMapTables, 128 * 4096) ∧
      Apart (layout.identityTables, 2 * 4096) (layout.directMapTables, 128 * 4096) := by
  have apart := layout.apart
  rw [paeDirectMapPdeCount_eq, paeDynamicPdeCount_eq] at apart
  simp only [List.pairwise_cons, List.mem_cons, List.not_mem_nil, or_false, forall_eq_or_imp,
    forall_eq] at apart
  obtain ⟨⟨e, f, -⟩, ⟨g, a, h, b⟩, ⟨c, i, d⟩, -⟩ := apart
  exact ⟨⟨a.symm, b.symm, c.symm, d.symm⟩, e, f, g, h, i⟩

section Bootstrap

variable {m : WordMemory} {a : Nat}

theorem prepareIdentity_outside (directory : Apart (a, 8) (layout.identityDirectory, 4096))
    (tables : Apart (a, 8) (layout.identityTables, 2 * 4096)) :
    prepareIdentity layout m a = m a := by
  unfold prepareIdentity
  rw [fill_apart, fillTables_outside tables]
  unfold Apart at *
  omega

/-- A directory entry of the kernel half: the direct map's entries and zeros. -/
theorem bootstrap_pde {d : Nat} (small : d < 512) :
    paePrepareBootstrapTables layout m (layout.kernelDirectoryEntry d) =
      if d < 128 then paeMakeEntry (layout.directMapTable d) (paeEntryPresent ||| paeEntryWritable)
      else 0 := by
  obtain ⟨pdpt, -, -, direct, dynamic, -⟩ := layout.tables_apart
  obtain ⟨identity, -, identityTables, -⟩ := layout.identity_apart.1
  have low : layout.kernelDirectory ≤ layout.kernelDirectoryEntry d := by
    unfold Layout.kernelDirectoryEntry WordMemory.word
    omega
  have high : layout.kernelDirectoryEntry d + 8 ≤ layout.kernelDirectory + 4096 := by
    unfold Layout.kernelDirectoryEntry WordMemory.word
    omega
  have offPdpt : ∀ i < 4, layout.kernelDirectoryEntry d ≠ WordMemory.word layout.pdpt i := by
    intro i below
    unfold Apart at pdpt
    unfold WordMemory.word
    dsimp only at pdpt
    omega
  unfold paePrepareBootstrapTables prepareDirectMap
  dsimp only
  rw [WordMemory.store_other (offPdpt _ (by decide)),
    WordMemory.store_other (offPdpt _ (by decide)), paeDirectMapPdeCount_eq,
    fillTables_outside (direct.mono low high)]
  by_cases mapped : d < 128
  · rw [if_pos mapped]
    exact WordMemory.fill_word mapped
  · rw [if_neg mapped, WordMemory.fill_outside (by
      unfold Layout.kernelDirectoryEntry WordMemory.word
      omega), prepareIdentity_outside (identity.mono low high) (identityTables.mono low high),
      paeDynamicPdeCount_eq, fillTables_outside (dynamic.mono low high),
      fillTables_outside (direct.mono low high)]
    exact WordMemory.fill_word small

theorem bootstrap_directPte {d i : Nat} (table : d < 128) (entry : i < 512) :
    paePrepareBootstrapTables layout m (WordMemory.word (layout.directMapTable d) i) =
      paeMakeEntry (d * paePteEntries * pageSize + i * pageSize)
        (paeEntryPresent ||| paeEntryWritable) := by
  obtain ⟨-, pdpt, -, -, -, -⟩ := layout.tables_apart
  have offPdpt : ∀ j < 4,
      WordMemory.word (layout.directMapTable d) i ≠ WordMemory.word layout.pdpt j := by
    intro j below
    unfold Apart at pdpt
    unfold WordMemory.word Layout.directMapTable pageSize
    dsimp only at pdpt
    omega
  unfold paePrepareBootstrapTables prepareDirectMap
  dsimp only
  rw [WordMemory.store_other (offPdpt _ (by decide)),
    WordMemory.store_other (offPdpt _ (by decide)), paeDirectMapPdeCount_eq]
  unfold Layout.directMapTable
  rw [fillTables_word table entry]

/-- The words that only the last two steps and the first one write. -/
theorem bootstrap_pdpt {i : Nat} (small : i < 4) :
    paePrepareBootstrapTables layout m (WordMemory.word layout.pdpt i) =
      if i = paePdptEntryKernel then paeMakeEntry layout.kernelDirectory paeEntryPresent
      else if i = paePdptEntryLow then paeMakeEntry layout.identityDirectory paeEntryPresent
      else 0 := by
  obtain ⟨directory, direct, dynamic, -, -, -⟩ := layout.tables_apart
  obtain ⟨identity, identityTables, -, -, -⟩ := layout.identity_apart.2
  have low : layout.pdpt ≤ WordMemory.word layout.pdpt i := by
    unfold WordMemory.word
    omega
  have high : WordMemory.word layout.pdpt i + 8 ≤ layout.pdpt + 32 := by
    unfold WordMemory.word
    omega
  have other : ∀ {j}, i ≠ j → WordMemory.word layout.pdpt i ≠ WordMemory.word layout.pdpt j := by
    intro j different
    unfold WordMemory.word
    omega
  have offDirectory := directory.mono low high
  unfold paePrepareBootstrapTables prepareDirectMap
  dsimp only
  split
  · next last => rw [last, WordMemory.store_same]
  next last =>
  rw [WordMemory.store_other (other last)]
  split
  · next first => rw [first, WordMemory.store_same]
  next first =>
  rw [WordMemory.store_other (other first), paeDirectMapPdeCount_eq, paeDynamicPdeCount_eq,
    fillTables_outside (direct.mono low high), fill_apart (by
      unfold Apart at offDirectory ⊢
      dsimp only at offDirectory ⊢
      omega),
    prepareIdentity_outside (identity.mono low high) (identityTables.mono low high),
    fillTables_outside (dynamic.mono low high), fillTables_outside (direct.mono low high),
    fill_apart offDirectory, fill_apart (identity.mono low high)]
  exact WordMemory.fill_word small

/-- The words below that the direct map does not write. -/
theorem bootstrap_identity (pdpt : Apart (layout.pdpt, 32) (a, 8))
    (directory : Apart (a, 8) (layout.kernelDirectory, 4096))
    (direct : Apart (a, 8) (layout.directMapTables, 128 * 4096)) :
    ∃ m', paePrepareBootstrapTables layout m a = prepareIdentity layout m' a ∧
      (Apart (a, 8) (layout.dynamicTables, 126 * 4096) →
        ∀ i < 512, a = WordMemory.word layout.identityDirectory i → m' a = 0) := by
  have offPdpt : ∀ i < 4, a ≠ WordMemory.word layout.pdpt i := by
    intro i below
    unfold Apart at pdpt
    unfold WordMemory.word
    dsimp only at pdpt
    omega
  unfold paePrepareBootstrapTables prepareDirectMap
  dsimp only
  rw [WordMemory.store_other (offPdpt _ (by decide)),
    WordMemory.store_other (offPdpt _ (by decide)), paeDirectMapPdeCount_eq,
    paeDynamicPdeCount_eq, fillTables_outside direct, fill_apart (by
      unfold Apart at directory ⊢
      dsimp only at directory ⊢
      omega)]
  refine ⟨_, rfl, fun dynamic i small here => ?_⟩
  rw [fillTables_outside dynamic, fillTables_outside direct, fill_apart directory, here]
  exact WordMemory.fill_word small

theorem bootstrap_identityPde {d : Nat} (small : d < 512) :
    paePrepareBootstrapTables layout m (WordMemory.word layout.identityDirectory d) =
      if d < 2 then paeMakeEntry (layout.identityTables + pageSize * d)
        (paeEntryPresent ||| paeEntryWritable)
      else 0 := by
  obtain ⟨directory, dynamic, -, -⟩ := layout.identity_apart.1
  obtain ⟨pdpt, -, tables, direct, -⟩ := layout.identity_apart.2
  have low : layout.identityDirectory ≤ WordMemory.word layout.identityDirectory d := by
    unfold WordMemory.word
    omega
  have high : WordMemory.word layout.identityDirectory d + 8 ≤ layout.identityDirectory + 4096 := by
    unfold WordMemory.word
    omega
  obtain ⟨m', same, zero⟩ := bootstrap_identity (m := m) (pdpt.symm.mono low high).symm
    (directory.symm.mono low high) (direct.mono low high)
  rw [same]
  unfold prepareIdentity
  by_cases first : d < 2
  · rw [if_pos first]
    exact WordMemory.fill_word first
  · rw [if_neg first, WordMemory.fill_outside (by unfold WordMemory.word; omega),
      fillTables_outside (tables.mono low high)]
    exact zero (dynamic.symm.mono low high) d small rfl

/-- The identity tables map each page to itself. -/
theorem bootstrap_identityPte {t i : Nat} (table : t < 2) (entry : i < 512) :
    paePrepareBootstrapTables layout m
      (WordMemory.word (layout.identityTables + pageSize * t) i) =
        paeMakeEntry ((t * paePteEntries + i) * pageSize)
          (paeEntryPresent ||| paeEntryWritable) := by
  obtain ⟨-, -, directory, -⟩ := layout.identity_apart.1
  obtain ⟨-, pdpt, tables, -, direct⟩ := layout.identity_apart.2
  have low : layout.identityTables ≤
      WordMemory.word (layout.identityTables + pageSize * t) i := by
    unfold WordMemory.word
    omega
  have high : WordMemory.word (layout.identityTables + pageSize * t) i + 8 ≤
      layout.identityTables + 2 * 4096 := by
    unfold WordMemory.word pageSize
    omega
  have off := tables.symm.mono low high
  obtain ⟨m', same, -⟩ := bootstrap_identity (m := m) (pdpt.symm.mono low high).symm
    (directory.symm.mono low high) (direct.mono low high)
  rw [same]
  unfold prepareIdentity
  rw [fill_apart (by
    unfold Apart at off ⊢
    dsimp only at off ⊢
    omega)]
  exact fillTables_word table entry

theorem bootstrap_directMap : DirectMap layout (paePrepareBootstrapTables layout m) where
  pdpte := by
    rw [bootstrap_pdpt (by decide), if_pos rfl]
    exact paeMakeEntry_present.mpr (by decide)
  pde d below := by
    rw [bootstrap_pde (by omega), if_pos below]
    exact paeMakeEntry_present.mpr (by decide)
  pte d below i small := by
    rw [bootstrap_directPte below small]
    exact paeMakeEntry_present.mpr (by decide)

theorem bootstrap_dynamicEntry {n : Nat} (number : n < 126 * 512) :
    paePrepareBootstrapTables layout m (layout.dynamicEntry n) = 0 := by
  obtain ⟨-, -, pdpt, -, directory, direct⟩ := layout.tables_apart
  obtain ⟨-, identity, -, identityTables⟩ := layout.identity_apart.1
  have low : layout.dynamicTables ≤ layout.dynamicEntry n := by
    unfold Layout.dynamicEntry WordMemory.word
    omega
  have high : layout.dynamicEntry n + 8 ≤ layout.dynamicTables + 126 * 4096 := by
    unfold Layout.dynamicEntry WordMemory.word
    omega
  have offPdpt : ∀ i < 4, layout.dynamicEntry n ≠ WordMemory.word layout.pdpt i := by
    intro i below
    unfold Apart at pdpt
    unfold WordMemory.word
    dsimp only at pdpt
    omega
  have offDirectory : Apart (layout.dynamicEntry n, 8) (layout.kernelDirectory, 4096) :=
    directory.symm.mono low high
  have offDirect : Apart (layout.dynamicEntry n, 8) (layout.directMapTables, 128 * 4096) :=
    direct.symm.mono low high
  have table : layout.dynamicEntry n =
      WordMemory.word (layout.dynamicTables + pageSize * (n / 512)) (n % 512) := by
    unfold Layout.dynamicEntry WordMemory.word pageSize
    omega
  unfold paePrepareBootstrapTables prepareDirectMap
  dsimp only
  rw [WordMemory.store_other (offPdpt _ (by decide)),
    WordMemory.store_other (offPdpt _ (by decide)), paeDirectMapPdeCount_eq,
    fillTables_outside offDirect, fill_apart (by
      unfold Apart at offDirectory ⊢
      dsimp only at offDirectory ⊢
      omega), prepareIdentity_outside (identity.mono low high) (identityTables.mono low high),
    paeDynamicPdeCount_eq, table, fillTables_word (by omega) (Nat.mod_lt _ (by decide))]

end Bootstrap

/-! ## Write protection -/

/-- What protecting pages of the direct map leaves alone. -/
structure Protected (layout : Layout) (m m' : WordMemory) : Prop where
  present : ∀ a, Present (m' a) ↔ Present (m a)
  address : ∀ a, m' a &&& paeEntryAddrMask = m a &&& paeEntryAddrMask
  readOnly : ∀ a, m a &&& paeEntryWritable = 0 → m' a &&& paeEntryWritable = 0
  outside : ∀ a, Apart (a, 8) (layout.directMapTables, 128 * 4096) → m' a = m a

section Protection

variable {m m' m'' : WordMemory}

theorem Protected.refl (m : WordMemory) : Protected layout m m :=
  ⟨fun _ => Iff.rfl, fun _ => rfl, fun _ => id, fun _ _ => rfl⟩

theorem Protected.trans (first : Protected layout m m') (second : Protected layout m' m'') :
    Protected layout m m'' :=
  ⟨fun a => (second.present a).trans (first.present a),
    fun a => (second.address a).trans (first.address a),
    fun a protectedBefore => second.readOnly a (first.readOnly a protectedBefore),
    fun a off => (second.outside a off).trans (first.outside a off)⟩

theorem writable_readOnly (pte : Nat) : (pte &&& 0xFFFFFFFFFFFFFFFD) &&& paeEntryWritable = 0 := by
  have bit : 0xFFFFFFFFFFFFFFFD &&& paeEntryWritable = 0 := by decide
  rw [Nat.and_assoc, bit, Nat.and_zero]

theorem present_readOnly (pte : Nat) : Present (pte &&& 0xFFFFFFFFFFFFFFFD) ↔ Present pte := by
  have bit : 0xFFFFFFFFFFFFFFFD &&& paeEntryPresent = paeEntryPresent := by decide
  unfold Present
  rw [Nat.and_assoc, bit]

/-- The direct map's entry for a kernel address. -/
def Layout.directMapEntry (layout : Layout) (address : Nat) : Nat :=
  WordMemory.word (layout.directMapTable (paeDirectoryIndexOf address)) (paeTableIndexOf address)

theorem directMap_indices (layout : Layout) {address : Nat} (low : kernelVma ≤ address)
    (high : address < kernelVma + kernelDirectMapLimitPhys) :
    paePdptIndexOf address = paePdptEntryKernel ∧ paeDirectoryIndexOf address < 128 ∧
      paeTableIndexOf address < 512 ∧
      paePageTableForDirectory layout (paeDirectoryIndexOf address) =
        some (layout.directMapTable (paeDirectoryIndexOf address)) := by
  have directory : paeDirectoryIndexOf address < 128 := by
    unfold kernelVma kernelDirectMapLimitPhys at *
    rw [paeDirectoryIndexOf_eq]
    omega
  refine ⟨?_, directory, ?_, ?_⟩
  · apply paePdptIndexOf_kernel low
    unfold kernelVma kernelDirectMapLimitPhys at high
    omega
  · rw [paeTableIndexOf_eq]
    exact Nat.mod_lt _ (by decide)
  · unfold paePageTableForDirectory
    rw [paeDirectMapPdeCount_eq, if_pos directory]

theorem window_le {address : Nat} (high : address < kernelVma + bootstrapWindowSize) :
    address < kernelVma + kernelDirectMapLimitPhys :=
  Nat.lt_of_lt_of_le high (Nat.add_le_add_left (by decide) _)

theorem protectPage_protected {address : Nat} (low : kernelVma ≤ address)
    (high : address < kernelVma + bootstrapWindowSize) :
    Protected layout m (protectPage layout m address) := by
  obtain ⟨-, directory, entry, table⟩ := directMap_indices layout low (window_le high)
  have stored : Protected layout m (m.store (layout.directMapEntry address)
      (m (layout.directMapEntry address) &&& 0xFFFFFFFFFFFFFFFD)) := by
    refine ⟨fun a => ?_, fun a => ?_, fun a before => ?_, fun a off => WordMemory.store_other ?_⟩
    · by_cases here : a = layout.directMapEntry address
      · rw [here, WordMemory.store_same, present_readOnly]
      · rw [WordMemory.store_other here]
    · by_cases here : a = layout.directMapEntry address
      · rw [here, WordMemory.store_same, Nat.and_assoc]
        rfl
      · rw [WordMemory.store_other here]
    · by_cases here : a = layout.directMapEntry address
      · rw [here, WordMemory.store_same, writable_readOnly]
      · rw [WordMemory.store_other here]
        exact before
    · unfold Apart at off
      unfold Layout.directMapEntry WordMemory.word Layout.directMapTable pageSize
      dsimp only at off
      omega
  unfold protectPage
  dsimp only
  rw [table]
  dsimp only
  split_ifs
  · exact .refl m
  · exact stored
  · exact .refl m
  · exact .refl m

/-- A page of the direct map that is protected can no longer be written. -/
theorem protectPage_readOnly {address : Nat} (low : kernelVma ≤ address)
    (high : address < kernelVma + bootstrapWindowSize) (direct : DirectMap layout m) :
    protectPage layout m address (layout.directMapEntry address) &&& paeEntryWritable = 0 := by
  obtain ⟨top, directory, entry, table⟩ := directMap_indices layout low (window_le high)
  unfold protectPage
  dsimp only
  rw [if_neg (not_not.mpr top), if_neg (not_not.mpr (direct.pde _ directory)), table]
  dsimp only
  rw [if_neg (not_not.mpr (direct.pte _ directory _ entry)), Layout.directMapEntry,
    WordMemory.store_same, writable_readOnly]

/-- Protection keeps the direct map. -/
theorem Protected.directMap (kept : Protected layout m m') (direct : DirectMap layout m) :
    DirectMap layout m' where
  pdpte := (kept.present _).mpr direct.pdpte
  pde d below := (kept.present _).mpr (direct.pde d below)
  pte d below i small := (kept.present _).mpr (direct.pte d below i small)

/-- The loop protects each page it comes to. -/
theorem protectLoop_protected (left : Nat) :
    ∀ (address : Nat) (m : WordMemory), kernelVma ≤ address →
      address + left * pageSize ≤ kernelVma + bootstrapWindowSize →
      Protected layout m (protectLoop layout left address m) ∧
        (DirectMap layout m → ∀ j < left,
          protectLoop layout left address m (layout.directMapEntry (address + j * pageSize)) &&&
            paeEntryWritable = 0) := by
  induction left with
  | zero => exact fun _ _ _ _ => ⟨.refl _, fun _ j below => absurd below (Nat.not_lt_zero j)⟩
  | succ left ih =>
      intro address m low high
      rw [Nat.succ_mul] at high
      have page : 0 < pageSize := by decide
      have first : Protected layout m (protectPage layout m address) :=
        protectPage_protected low (by omega)
      obtain ⟨later, readOnly⟩ := ih (address + pageSize)
        (protectPage layout m address) (by omega) (by omega)
      refine ⟨first.trans later, fun direct j below => ?_⟩
      unfold protectLoop
      cases j with
      | zero =>
          rw [Nat.zero_mul, Nat.add_zero]
          exact later.readOnly _ (protectPage_readOnly low (by omega) direct)
      | succ j =>
          have same : address + (j + 1) * pageSize = address + pageSize + j * pageSize := by
            rw [Nat.succ_mul]
            omega
          rw [same]
          exact readOnly (first.directMap direct) j (by omega)

/-- All addresses of a page have one entry. -/
theorem directMapEntry_page {a b : Nat} (same : a / 4096 = b / 4096) :
    layout.directMapEntry a = layout.directMapEntry b := by
  unfold Layout.directMapEntry
  rw [paeDirectoryIndexOf_eq, paeDirectoryIndexOf_eq, paeTableIndexOf_eq, paeTableIndexOf_eq,
    show a / 2 ^ 21 = b / 2 ^ 21 by omega, show a / 2 ^ 12 = b / 2 ^ 12 from same]

/-- **`pae_protect_range`** takes away the right to write from every page that
meets the range. -/
theorem paeProtectRange_protected (m : WordMemory) {start stop : Nat} (low : kernelVma ≤ start)
    (high : stop ≤ kernelVma + bootstrapWindowSize) :
    Protected layout m (paeProtectRange layout m start stop) ∧
      (DirectMap layout m → ∀ a, start ≤ a → a < stop →
        paeProtectRange layout m start stop (layout.directMapEntry a) &&& paeEntryWritable = 0) := by
  unfold paeProtectRange
  split
  · exact ⟨.refl m, fun _ a _ _ => by omega⟩
  · unfold kernelVma at low high
    unfold bootstrapWindowSize at high
    have start' : alignDownU32 start pageSize = start / 4096 * 4096 := rfl
    have stop' : alignUpU32 stop pageSize = (stop + 4095) / 4096 * 4096 := by
      unfold alignUpU32 pageSize
      rw [u32Add_eq (by omega)]
    dsimp only
    rw [start', stop']
    obtain ⟨kept, readOnly⟩ := protectLoop_protected
      (((stop + 4095) / 4096 * 4096 - start / 4096 * 4096) / pageSize)
      (start / 4096 * 4096) m (by unfold kernelVma; omega)
      (by unfold pageSize kernelVma bootstrapWindowSize; omega)
    refine ⟨kept, fun direct a from_ below => ?_⟩
    have page := readOnly direct (a / 4096 - start / 4096) (by unfold pageSize; omega)
    rwa [directMapEntry_page (b := a) (by unfold pageSize; omega)] at page

theorem pagingApplyKernelProtections_protected :
    Protected layout m (pagingApplyKernelProtections layout m) :=
  (paeProtectRange_protected m layout.text_inside.1 layout.text_inside.2).1.trans
    (paeProtectRange_protected _ layout.rodata_inside.1 layout.rodata_inside.2).1

/-- A byte of the kernel's code or read-only data. -/
def Layout.ReadOnly (layout : Layout) (a : Nat) : Prop :=
  layout.textStart ≤ a ∧ a < layout.textEnd ∨ layout.rodataStart ≤ a ∧ a < layout.rodataEnd

theorem pagingApplyKernelProtections_readOnly (direct : DirectMap layout m) {a : Nat}
    (inside : layout.ReadOnly a) :
    pagingApplyKernelProtections layout m (layout.directMapEntry a) &&& paeEntryWritable = 0 := by
  obtain ⟨text, textOnly⟩ := paeProtectRange_protected m
    layout.text_inside.1 layout.text_inside.2
  obtain ⟨rodata, rodataOnly⟩ := paeProtectRange_protected
    (paeProtectRange layout m layout.textStart layout.textEnd) layout.rodata_inside.1
    layout.rodata_inside.2
  rcases inside with ⟨low, high⟩ | ⟨low, high⟩
  · exact rodata.readOnly _ (textOnly direct a low high)
  · exact rodataOnly (text.directMap direct) a low high

end Protection

/-! ## The kernel after `paging_init` -/

section Init

variable {memory : WordMemory} {pmm : PmmState}

theorem pagingInit_directMap : DirectMap layout (pagingInit layout memory pmm).memory :=
  pagingApplyKernelProtections_protected.directMap bootstrap_directMap

theorem pagingInit_dynamicEntry {n : Nat} (number : n < 126 * 512) :
    ¬ Present ((pagingInit layout memory pmm).memory (layout.dynamicEntry n)) := by
  have kept : Protected layout _ (pagingInit layout memory pmm).memory :=
    pagingApplyKernelProtections_protected
  rw [kept.present, bootstrap_dynamicEntry number]
  exact not_present_zero

theorem pagingInit_dynamicTables :
    DynamicTables layout (pagingInit layout memory pmm).memory := by
  have kept : Protected layout _ (pagingInit layout memory pmm).memory :=
    pagingApplyKernelProtections_protected
  have absent : ∀ d, 384 ≤ d → d < 510 →
      ¬ Present ((pagingInit layout memory pmm).memory (layout.kernelDirectoryEntry d)) := by
    intro d low high
    rw [kept.present, bootstrap_pde (by omega), if_neg (by omega)]
    exact not_present_zero
  exact ⟨fun d low high pde => absurd pde (absent d low high),
    fun n number pte => absurd pte (pagingInit_dynamicEntry number),
    fun d low high pde => absurd pde (absent d low high)⟩

/-- **The tables are in order after `paging_init`**, provided `pae_pdpt` starts
a page: otherwise the kernel space's root, which drops the low bits of CR3,
would name the page that `pae_pdpt` lies in and not `pae_pdpt`. -/
theorem pagingInit_tables (aligned : pageSize ∣ layout.pdpt) :
    PageTables layout (pagingInit layout memory pmm) where
  direct := pagingInit_directMap
  dynamic := pagingInit_dynamicTables
  root := by
    have kept : Protected layout _ (pagingInit layout memory pmm).memory :=
      pagingApplyKernelProtections_protected
    obtain ⟨directory, direct, dynamic, -, -, -⟩ := layout.tables_apart
    have inside := layout.inside (layout.pdpt, 8 * paePdptEntries) (by simp)
    have below : layout.pdpt < bootstrapWindowSize := by
      unfold paePdptEntries at inside
      dsimp only at inside
      omega
    have small : layout.pdpt < 2 ^ 32 := lt_trans below (by decide)
    have low : layout.pdpt ≤ WordMemory.word layout.pdpt paePdptEntryKernel := by
      unfold WordMemory.word
      omega
    have high : WordMemory.word layout.pdpt paePdptEntryKernel + 8 ≤ layout.pdpt + 32 :=
      le_refl _
    have root : (layout.pdpt &&& 0xFFFFF000) &&& 0xFFFFF000 = layout.pdpt := by
      have page : layout.pdpt &&& 0xFFFFF000 = layout.pdpt := addrMask_of_page aligned small
      rw [page, page]
    refine ⟨0, rfl, ?_⟩
    show KernelRoot layout _ ((layout.pdpt &&& 0xFFFFF000) &&& 0xFFFFF000)
    rw [root]
    refine ⟨lt_trans below (by decide), ?_, directory.mono low high, dynamic.mono low high⟩
    rw [kept.outside _ (direct.mono low high), paePrepareBootstrapTables, WordMemory.store_same]

theorem pagingInit_lookup {page : Nat} (inRegion : Dynamic page) :
    lookup layout (pagingInit layout memory pmm).memory page = none :=
  if_neg (pagingInit_dynamicEntry inRegion.pageNumber_lt)

end Init

end Dfos.Paging
