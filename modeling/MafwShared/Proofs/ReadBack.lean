import MafwShared.Lib.Runs
import MafwShared.Proofs.RoundTrip

/-!
# Contents that are read back

A file that brings its playlist back exactly is one whose lines all fit: every number
below 2^31, the name on a line of its own, every object id one word, every line within
the buffer. So the exact round trip alone says that the playlist is `Savable`.
-/

namespace MafwShared
open CLib

/-! ### Lines that were read -/

lemma takeLine_newline {n : Nat} {f l t : Bytes} {c : UInt8} (h : (takeLine n f).1 = l ++ c :: t) : 10 ∉ l := by
  induction n generalizing f l with
  | zero => simp [takeLine] at h
  | succ n ih =>
    cases f with
    | nil => simp [takeLine] at h
    | cons d f =>
      rw [takeLine] at h
      cases l with
      | nil => exact List.not_mem_nil
      | cons e l =>
        by_cases hd : d = 10
        · simp [hd] at h
        · rw [if_neg hd] at h
          obtain ⟨rfl, hrest⟩ := List.cons.inj h
          rw [List.mem_cons, not_or]
          exact ⟨Ne.symm hd, ih hrest⟩

lemma takeLine_length (n : Nat) (f : Bytes) : (takeLine n f).1.length ≤ n := by
  induction n generalizing f with
  | zero => simp [takeLine]
  | succ n ih =>
    cases f with
    | nil => simp [takeLine]
    | cons c f =>
      rw [takeLine]
      split
      · simp
      · simpa using ih f

lemma readLine_bounds {f l rest : Bytes} (h : readLine f = .ok (l, rest)) : 10 ∉ l ∧ l.length ≤ 2048 := by
  unfold readLine fgetsnl fgets at h
  by_cases hf : f = []
  · rw [if_pos hf] at h
    cases h
  · rw [if_neg hf] at h
    have hlen := takeLine_length 2048 f
    have hprefix : cstring (takeLine 2048 f).1 <+: (takeLine 2048 f).1 := List.takeWhile_prefix _
    dsimp only at h
    by_cases hs : cstring (takeLine 2048 f).1 = []
    · rw [show 2049 - 1 = 2048 from rfl, if_pos hs] at h
      cases h
    · rw [show 2049 - 1 = 2048 from rfl, if_neg hs] at h
      cases h
      have hle := hprefix.length_le
      have hdrop : (10 : UInt8) ∉ (cstring (takeLine 2048 f).1).dropLast := by
        obtain ⟨t, ht⟩ := hprefix
        rw [← List.dropLast_append_getLast hs, List.append_assoc] at ht
        exact takeLine_newline ht.symm
      split
      · exact ⟨hdrop, by rw [List.length_dropLast]; omega⟩
      · rename_i hlast
        refine ⟨fun hmem => ?_, by omega⟩
        rw [← List.dropLast_append_getLast hs, List.mem_append, List.mem_singleton] at hmem
        rcases hmem with hmem | hmem
        · exact hdrop hmem
        · exact hlast (by rw [List.getLast?_eq_getLast_of_ne_nil hs, ← hmem])

lemma convert_range {buf : Bytes} {stop : LoadStop} {x : Int} (h : convert buf stop = .ok x) : x < 2 ^ 31 := by
  unfold convert scanInt at h
  cases hscan : scanNumber buf with
  | none =>
    rw [hscan] at h
    cases h
  | some r =>
    rw [hscan] at h
    cases h
    have hlt := Int.bmod_lt (x := max (-2 ^ 63) (min (2 ^ 63 - 1) (if r.1 then -(r.2.1 : Int) else r.2.1)))
      (m := 2 ^ 32) (by decide)
    exact hlt

/-! ### What the loader keeps -/

lemma storeCell_ok {α : Type} {size i : Nat} {a b : Nat → α} {x : α} (h : storeCell size a i x = .ok b) :
    b = Function.update a i x := by
  unfold storeCell at h
  split at h
  · cases h
    rfl
  · cases h

lemma loadEntries_step {len n i : Nat} {p q : Pls} {f : Bytes} (h : loadEntries len (n + 1) i p f = .ok q) :
    ∃ buf rest pidx oid p', readLine f = .ok (buf, rest) ∧ scanItem buf = some (pidx, oid) ∧
      p'.id = p.id ∧ p'.name = p.name ∧ p'.poolst = p.poolst ∧ p'.vidx = Function.update p.vidx i oid ∧
      loadEntries len n (i + 1) p' rest = .ok q := by
  rw [loadEntries] at h
  obtain ⟨⟨buf, rest⟩, hread, h⟩ := bind_ok h
  dsimp only at h
  cases hscan : scanItem buf with
  | none =>
    rw [hscan] at h
    cases h
  | some item =>
    obtain ⟨pidx, oid⟩ := item
    rw [hscan] at h
    obtain ⟨-, -, h⟩ := bind_ok h
    obtain ⟨vidx, hv, h⟩ := bind_ok h
    have hvidx := storeCell_ok hv
    by_cases hs : p.shuffled ≠ 0
    · rw [if_pos hs] at h
      obtain ⟨order, -, h⟩ := bind_ok h
      obtain ⟨iidx, -, h⟩ := bind_ok h
      refine ⟨buf, rest, pidx, oid, _, hread, hscan, ?_, ?_, ?_, ?_, h⟩
      exacts [rfl, rfl, rfl, hvidx]
    · rw [if_neg hs] at h
      refine ⟨buf, rest, pidx, oid, _, hread, hscan, ?_, ?_, ?_, ?_, h⟩
      exacts [rfl, rfl, rfl, hvidx]

/-- What the loop over the entries leaves as it is. -/
structure Entered (n i : Nat) (p q : Pls) : Prop where
  id_eq : q.id = p.id
  name_eq : q.name = p.name
  poolst_eq : q.poolst = p.poolst
  len_eq : q.len = i + n
  kept : ∀ j < i, q.vidx j = p.vidx j

lemma loadEntries_entered {len n i : Nat} {p q : Pls} {f : Bytes} (h : loadEntries len n i p f = .ok q) :
    Entered n i p q := by
  induction n generalizing i p f with
  | zero =>
    cases h
    exact ⟨rfl, rfl, rfl, rfl, fun _ _ => rfl⟩
  | succ n ih =>
    obtain ⟨buf, rest, pidx, oid, p', -, -, hid, hname, hpool, hvidx, hload⟩ := loadEntries_step h
    have hr := ih hload
    refine ⟨hr.id_eq.trans hid, hr.name_eq.trans hname, hr.poolst_eq.trans hpool, by rw [hr.len_eq]; omega,
      fun j hj => ?_⟩
    rw [hr.kept j (by omega), hvidx, Function.update_of_ne (by omega)]

lemma loadText_bounds {f : Bytes} {q : Pls} (h : loadText f = .ok q) :
    q.id < 2 ^ 31 ∧ q.len < 2 ^ 31 ∧ q.poolst < 2 ^ 31 ∧ q.name ≠ [] ∧ 10 ∉ q.name ∧ q.name.length ≤ 2048 := by
  unfold loadText at h
  obtain ⟨⟨l1, f1⟩, -, h⟩ := bind_ok h
  obtain ⟨version, -, h⟩ := bind_ok h
  obtain ⟨-, -, h⟩ := bind_ok h
  obtain ⟨-, -, h⟩ := bind_ok h
  obtain ⟨⟨l2, f2⟩, -, h⟩ := bind_ok h
  obtain ⟨id, hid, h⟩ := bind_ok h
  obtain ⟨-, -, h⟩ := bind_ok h
  obtain ⟨⟨name, f3⟩, hname, h⟩ := bind_ok h
  obtain ⟨⟨l4, f4⟩, -, h⟩ := bind_ok h
  obtain ⟨repeatMode, -, h⟩ := bind_ok h
  obtain ⟨⟨l5, f5⟩, -, h⟩ := bind_ok h
  obtain ⟨shuffled, -, h⟩ := bind_ok h
  obtain ⟨⟨l6, f6⟩, -, h⟩ := bind_ok h
  obtain ⟨len, hlen, h⟩ := bind_ok h
  obtain ⟨-, -, h⟩ := bind_ok h
  obtain ⟨⟨poolst, f7⟩, hpoolst, h⟩ := bind_ok h
  have hidlt := convert_range hid
  have hlenlt := convert_range hlen
  have hpoolstlt : poolst < 2 ^ 31 := by
    unfold loadPoolst at hpoolst
    by_cases hv : version = 2
    · rw [if_pos hv] at hpoolst
      obtain ⟨⟨l7, f7'⟩, -, hpoolst⟩ := bind_ok hpoolst
      obtain ⟨x, hx, hpoolst⟩ := bind_ok hpoolst
      obtain ⟨-, -, hpoolst⟩ := bind_ok hpoolst
      cases hpoolst
      exact convert_range hx
    · rw [if_neg hv] at hpoolst
      cases hpoolst
      exact hlenlt
  dsimp only at h
  cases hnew : plsNew true id.toNat name with
  | none =>
    rw [hnew] at h
    cases h
  | some p =>
    rw [hnew] at h
    dsimp only at h
    have hne : name ≠ [] := by
      intro hnil
      rw [plsNew, if_pos hnil] at hnew
      cases hnew
    have hp : p.id = id.toNat ∧ p.name = name := by
      rw [plsNew, if_neg hne] at hnew
      cases hnew
      rw [plsSetName, if_neg hne]
      exact ⟨rfl, rfl⟩
    split at h
    · cases h
    · rename_i r hr
      have hspec := (maybeRealloc_spec hr).1
      have hentered := loadEntries_entered h
      have hqid : q.id = id.toNat := hentered.id_eq.trans ((congrArg Pls.id hspec).trans hp.1)
      have hqname : q.name = name := hentered.name_eq.trans ((congrArg Pls.name hspec).trans hp.2)
      have hqpool : q.poolst = poolst.toNat := hentered.poolst_eq.trans (congrArg Pls.poolst hspec :)
      have hqlen := hentered.len_eq
      obtain ⟨hten, hlength⟩ := readLine_bounds hname
      exact ⟨by omega, by omega, by omega, hqname ▸ hne, hqname ▸ hten, hqname ▸ hlength⟩

/-! ### What the exact round trip says about the items -/

lemma scanItem_word {buf : Bytes} {pidx : Nat} {oid : Bytes} (h : scanItem buf = some (pidx, oid)) :
    oid ≠ [] ∧ ∀ c ∈ oid, isspace c = false := by
  unfold scanItem at h
  obtain ⟨⟨n, r⟩, -, h⟩ := Option.bind_eq_some_iff.mp h
  obtain ⟨r', -, h⟩ := Option.bind_eq_some_iff.mp h
  obtain ⟨⟨w, r''⟩, hw, h⟩ := Option.map_eq_some_iff.mp h
  obtain ⟨-, rfl⟩ := Prod.mk.inj h
  unfold scanWord at hw
  dsimp only at hw
  split at hw
  · cases hw
  · rename_i hne
    obtain ⟨rfl, -⟩ := Prod.mk.inj (Option.some.inj hw)
    refine ⟨hne, fun c hc => ?_⟩
    simpa using List.mem_takeWhile_imp hc

/-- An item line that is longer than the buffer loses the end of its object id. -/
lemma scanItem_overlong {src : Pls} {i pidx : Nat} (hindex : playingIndex src i < 2 ^ 31)
    (hlong : 2048 < (itemLine src i).length)
    (h : scanItem ((itemLine src i).take 2048) = some (pidx, src.vidx i)) : False := by
  have hdigits : (Nat.toDigits 10 (playingIndex src i)).length ≤ 10 :=
    (Nat.length_toDigits_le_iff (by decide) (by decide)).mpr (by omega)
  have hdec : (decimal (playingIndex src i)).length ≤ 10 := by rwa [decimal, List.length_map]
  obtain ⟨m, hm⟩ : ∃ m, 2048 = (decimal (playingIndex src i)).length + (m + 1) :=
    ⟨2048 - (decimal (playingIndex src i)).length - 1, by omega⟩
  rw [itemLine, hm, List.take_length_add_append, List.take_succ_cons, scanItem_line (by omega)] at h
  split at h
  · cases h
  · have hword := congrArg (fun r => (r.map fun x => x.2.length).getD 0) h
    have hle : (firstWord ((src.vidx i).take m)).length ≤ ((src.vidx i).take m).length :=
      (List.takeWhile_sublist _).length_le.trans (List.dropWhile_sublist _).length_le
    have htake := List.length_take_le m (src.vidx i)
    rw [itemLine, List.length_append, List.length_cons] at hlong
    simp only [Option.map_some, Option.getD_some] at hword
    omega

lemma loadEntries_items {src q : Pls} {len n i : Nat} {p : Pls}
    (h : loadEntries len n i p (joinLines ((List.range' i n).map (itemLine src))) = .ok q)
    (hsame : ∀ j < i + n, q.vidx j = src.vidx j) (hnul : ∀ j < i + n, 0 ∉ src.vidx j)
    (hindex : ∀ j < i + n, playingIndex src j < 2 ^ 31) : ∀ j, i ≤ j → j < i + n →
      src.vidx j ≠ [] ∧ (∀ c ∈ src.vidx j, isspace c = false) ∧ (itemLine src j).length ≤ 2048 ∧
        (j + 1 < i + n → (itemLine src j).length < 2048) := by
  induction n generalizing i p with
  | zero =>
    intro j h1 h2
    omega
  | succ n ih =>
    obtain ⟨buf, rest, pidx, oid, p', hread, hscan, -, -, -, hvidx, hload⟩ := loadEntries_step h
    have hoid : oid = src.vidx i := by
      rw [← hsame i (by omega), (loadEntries_entered hload).kept i (by omega), hvidx, Function.update_self]
    obtain ⟨hne, hspace⟩ := scanItem_word hscan
    rw [hoid] at hne hspace hscan
    have hline : IsLine (itemLine src i) := by
      refine isLine_itemLine ⟨fun hten => ?_, hnul i (by omega)⟩
      have hsp := hspace 10 hten
      cases hsp
    rw [List.range'_succ, List.map_cons, joinLines_cons] at hread
    by_cases hfit : (itemLine src i).length < 2048
    · rw [readLine_line hline hfit] at hread
      cases hread
      intro j h1 h2
      by_cases hj : j = i
      · subst hj
        exact ⟨hne, hspace, hfit.le, fun _ => hfit⟩
      · obtain ⟨h3, h4, h5, h6⟩ := ih hload (fun j hj => hsame j (by omega)) (fun j hj => hnul j (by omega))
          (fun j hj => hindex j (by omega)) j (by omega) (by omega)
        exact ⟨h3, h4, h5, fun hlt => h6 (by omega)⟩
    · rw [readLine_full hline (not_lt.mp hfit)] at hread
      cases hread
      have hlen : (itemLine src i).length = 2048 := by
        by_contra hlong
        exact scanItem_overlong (hindex i (by omega)) (by omega) hscan
      cases n with
      | zero =>
        intro j h1 h2
        obtain rfl : j = i := by omega
        exact ⟨hne, hspace, hlen.le, fun hj => absurd hj (by omega)⟩
      | succ n =>
        -- the newline that is left over is read as an empty line
        obtain ⟨buf', rest', _, _, _, hread', hscan', -⟩ := loadEntries_step hload
        rw [List.drop_of_length_le hlen.le, List.nil_append] at hread'
        have hempty : ∀ t, readLine (10 :: t) = .ok ([], t) := fun t =>
          readLine_line (l := []) ⟨List.not_mem_nil, List.not_mem_nil⟩ (by decide)
        rw [hempty] at hread'
        cases hread'
        cases hscan'

/-- A well-formed playlist, its strings C strings, that a complete file brings back. -/
structure Restorable (p : Pls) : Prop where
  wf : p.WF
  name_cstring : 0 ∉ p.name
  oid_cstring : ∀ i < p.len, 0 ∉ p.vidx i
  loads : ∃ q, loadText (fileText p) = .ok q ∧ SameSaved p q

lemma fileText_lines (p : Pls) : fileText p =
    joinLines (headerLines p) ++ joinLines ((List.range p.len).map (itemLine p)) := by
  rw [fileText, fileLines, joinLines_append]

/-- A name that fills the buffer makes the next line empty. -/
lemma loadText_full_name {p : Pls} (hid : p.id < 2 ^ 31) (hline : IsLine p.name) (hlen : p.name.length = 2048) :
    loadText (fileText p) = .error .unassigned := by
  have hdigits : (Nat.toDigits 10 p.id).length ≤ 10 :=
    (Nat.length_toDigits_le_iff (by decide) (by decide)).mpr (by omega)
  have hdec : (decimal p.id).length < 2048 := by
    rw [decimal, List.length_map]
    omega
  obtain ⟨t, ht⟩ : ∃ t, fileText p = [86, 50] ++ 10 :: (decimal p.id ++ 10 :: (p.name ++ 10 :: t)) := by
    refine ⟨joinLines ((headerLines p).drop 3) ++ joinLines ((List.range p.len).map (itemLine p)), ?_⟩
    rw [fileText_lines]
    simp [headerLines]
  have h1 : ∀ t, readLine ([86, 50] ++ 10 :: t) = .ok ([86, 50], t) := fun t =>
    readLine_line (by unfold IsLine; decide) (by decide)
  have h2 : ∀ t, readLine (decimal p.id ++ 10 :: t) = .ok (decimal p.id, t) := fun t =>
    readLine_line (isLine_decimal p.id) hdec
  have h3 := readLine_full (t := 10 :: t) hline hlen.ge
  rw [List.take_of_length_le hlen.le, List.drop_of_length_le hlen.le, List.nil_append] at h3
  have h4 : readLine (10 :: t) = .ok ([], t) :=
    readLine_line (l := []) ⟨List.not_mem_nil, List.not_mem_nil⟩ (by decide)
  have hversion : convertVersion [86, 50] = .ok 2 := by decide
  have hempty : convert [] .unassigned = .error .unassigned := rfl
  unfold loadText
  simp only [ht, h1, h2, h3, h4, hversion, convert_decimal hid, hempty, bind, Except.bind, require]
  simp

namespace Restorable
variable {p : Pls}

lemma name_length_lt (h : Restorable p) : p.id < 2 ^ 31 ∧ p.len < 2 ^ 31 ∧ p.poolst < 2 ^ 31 ∧ p.name ≠ [] ∧
    IsLine p.name ∧ p.name.length < 2048 := by
  obtain ⟨q, hq, hsame⟩ := h.loads
  obtain ⟨hid, hlen, hpool, hne, hten, hle⟩ := loadText_bounds hq
  rw [hsame.id_eq] at hid
  rw [hsame.len_eq] at hlen
  rw [hsame.poolst_eq] at hpool
  rw [hsame.name_eq] at hne hten hle
  refine ⟨hid, hlen, hpool, hne, ⟨hten, h.name_cstring⟩, lt_of_le_of_ne hle fun hfull => ?_⟩
  rw [loadText_full_name hid ⟨hten, h.name_cstring⟩ hfull] at hq
  cases hq

lemma items (h : Restorable p) : ∀ i < p.len, p.vidx i ≠ [] ∧ (∀ c ∈ p.vidx i, isspace c = false) ∧
    (itemLine p i).length ≤ 2048 ∧ (i + 1 < p.len → (itemLine p i).length < 2048) := by
  obtain ⟨hid, hlen, hpool, hne, hline, hname⟩ := h.name_length_lt
  obtain ⟨q, hq, hsame⟩ := h.loads
  have hheader := header_fits hid hlen hpool hline hname
  have hreads : Reads (fun f => f = joinLines ((List.range p.len).map (itemLine p))) (headerLines p) (fileText p) := by
    rw [fileText_lines]
    exact reads_joinLines hheader rfl
  obtain ⟨rest, rfl, hload⟩ := loadText_header hid hlen hpool hne hreads
  obtain ⟨a, -, hrealloc⟩ := loadItems_alloc hlen
  rw [hload, loadItems, hrealloc, List.range_eq_range'] at hq
  have hcells : ∀ j < p.len, q.vidx j = p.vidx j := cells_inj.mp hsame.items
  have hitems := loadEntries_items hq (by simpa using hcells) (by simpa using h.oid_cstring)
    (fun j hj => (playingIndex_lt h.wf (by omega)).trans hlen)
  intro i hi
  obtain ⟨h1, h2, h3, h4⟩ := hitems i (Nat.zero_le i) (by omega)
  exact ⟨h1, h2, h3, fun hlt => h4 (by omega)⟩

theorem savable (h : Restorable p) : Savable p := by
  obtain ⟨hid, hlen, hpool, hne, hline, hname⟩ := h.name_length_lt
  refine ⟨h.wf, hid, hlen, hpool, hne, hline, hname, fun i hi => ⟨fun hten => ?_, h.oid_cstring i hi⟩,
    fun i hi => (h.items i hi).2.2.1, fun i hi => (h.items i (by omega)).2.2.2 hi⟩
  have hspace := (h.items i hi).2.1 10 hten
  cases hspace

end Restorable

end MafwShared
