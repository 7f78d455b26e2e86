import MafwShared.PlaylistFile
import MafwShared.Proofs.PlaylistEdits

/-!
# Reading back what was written

`Reads P ls f` says that reading lines from `f` delivers `ls` and leaves a rest that
satisfies `P`. `pls_load` looks at a file only through its lines, so that the proofs
about complete and about cut files split into two parts: which lines the text delivers,
and what the loader makes of them.
-/

namespace MafwShared
open CLib

/-! ### Lines of a file -/

def Reads (P : Bytes → Prop) : List Bytes → Bytes → Prop
  | [], f => P f
  | l :: ls, f => ∃ rest, readLine f = .ok (l, rest) ∧ Reads P ls rest

lemma reads_append {P : Bytes → Prop} {ls ls' : List Bytes} {f : Bytes} :
    Reads P (ls ++ ls') f ↔ Reads (Reads P ls') ls f := by
  induction ls generalizing f with
  | nil => rfl
  | cons l ls ih => simp only [List.cons_append, Reads, ih]

lemma Reads.mono {P Q : Bytes → Prop} {ls : List Bytes} {f : Bytes} (h : Reads P ls f)
    (hPQ : ∀ f, P f → Q f) : Reads Q ls f := by
  induction ls generalizing f with
  | nil => exact hPQ f h
  | cons l ls ih =>
    obtain ⟨rest, hl, hls⟩ := h
    exact ⟨rest, hl, ih hls⟩

/-- The text of one line. -/
def IsLine (l : Bytes) : Prop := 10 ∉ l ∧ 0 ∉ l

lemma IsLine.take {l : Bytes} (h : IsLine l) (m : Nat) : IsLine (l.take m) :=
  ⟨fun hm => h.1 (List.mem_of_mem_take hm), fun hm => h.2 (List.mem_of_mem_take hm)⟩

lemma IsLine.append {l l' : Bytes} (h : IsLine l) (h' : IsLine l') : IsLine (l ++ l') :=
  ⟨by simp [h.1, h'.1], by simp [h.2, h'.2]⟩

lemma isLine_of_digits {l : Bytes} (h : ∀ c ∈ l, isdigit c = true) : IsLine l :=
  ⟨fun hm => absurd (h 10 hm) (by decide), fun hm => absurd (h 0 hm) (by decide)⟩

lemma isLine_decimal (n : Nat) : IsLine (decimal n) := isLine_of_digits fun _ => mem_decimal

lemma readLine_nil : readLine [] = .error .null := rfl

lemma readLine_line {l rest : Bytes} (hl : IsLine l) (hlen : l.length < 2048) :
    readLine (l ++ 10 :: rest) = .ok (l, rest) := by
  have hstr : cstring (l ++ [10]) = l ++ [10] := cstring_eq_self (by simp [hl.2])
  have hget : fgets 2049 (l ++ 10 :: rest) = some (l ++ [10], rest) := by
    rw [fgets, if_neg (by simp), takeLine_line hl.1 hlen]
  unfold readLine fgetsnl
  rw [hget]
  simp [hstr]
  rfl

lemma readLine_end {l : Bytes} (hl : IsLine l) (hne : l ≠ []) (hlen : l.length ≤ 2048) :
    readLine l = .ok (l, []) := by
  have hstr : cstring l = l := cstring_eq_self hl.2
  have hlast : l.getLast? ≠ some 10 := fun h => hl.1 (List.mem_of_getLast? h)
  have hcut : takeLine 2048 (l ++ []) = (l, []) := takeLine_cut hl.1 hlen (Or.inr rfl)
  rw [List.append_nil] at hcut
  unfold readLine fgetsnl
  rw [fgets, if_neg hne, hcut]
  simp [hstr, hne, hlast]
  rfl

/-- A line that fills the buffer and leaves its rest for the next read. -/
lemma readLine_full {l t : Bytes} (hl : IsLine l) (hlen : 2048 ≤ l.length) :
    readLine (l ++ t) = .ok (l.take 2048, l.drop 2048 ++ t) := by
  have htake : (l.take 2048).length = 2048 := List.length_take_of_le hlen
  have hne : l.take 2048 ≠ [] := fun h => by simp [h] at htake
  have hstr : cstring (l.take 2048) = l.take 2048 := cstring_eq_self (hl.take 2048).2
  have hlast : (l.take 2048).getLast? ≠ some 10 := fun h => (hl.take 2048).1 (List.mem_of_getLast? h)
  have hcut : takeLine 2048 (l.take 2048 ++ (l.drop 2048 ++ t)) = (l.take 2048, l.drop 2048 ++ t) :=
    takeLine_cut (hl.take 2048).1 htake.le (Or.inl htake)
  rw [← List.append_assoc, List.take_append_drop] at hcut
  unfold readLine fgetsnl
  rw [fgets, if_neg (fun h => hne (by simp [(List.append_eq_nil_iff.mp h).1])), hcut]
  simp only [hstr, if_neg hne, if_neg hlast]
  rfl

lemma readLine_last {l e : Bytes} (hl : IsLine l) (hne : l ≠ []) (hlen : l.length ≤ 2048)
    (he : e = [10] ∨ e = []) : ∃ rest, readLine (l ++ e) = .ok (l, rest) := by
  rcases he with rfl | rfl
  · by_cases hfit : l.length < 2048
    · exact ⟨[], readLine_line hl hfit⟩
    · refine ⟨l.drop 2048 ++ [10], ?_⟩
      have hfull := readLine_full (t := [10]) hl (not_lt.mp hfit)
      rwa [List.take_of_length_le hlen] at hfull
  · rw [List.append_nil]
    exact ⟨[], readLine_end hl hne hlen⟩

@[simp] lemma joinLines_nil : joinLines [] = [] := rfl

@[simp] lemma joinLines_cons (l : Bytes) (ls : List Bytes) :
    joinLines (l :: ls) = l ++ 10 :: joinLines ls := by
  simp [joinLines]

@[simp] lemma joinLines_append (ls ls' : List Bytes) :
    joinLines (ls ++ ls') = joinLines ls ++ joinLines ls' := by
  simp [joinLines]

lemma reads_joinLines {P : Bytes → Prop} {ls : List Bytes} {f : Bytes}
    (h : ∀ l ∈ ls, IsLine l ∧ l.length < 2048) (hf : P f) : Reads P ls (joinLines ls ++ f) := by
  induction ls with
  | nil => exact hf
  | cons l ls ih =>
    obtain ⟨hl, hlen⟩ := h l List.mem_cons_self
    refine ⟨joinLines ls ++ f, ?_, ih (fun l' hl' => h l' (List.mem_cons_of_mem _ hl'))⟩
    rw [joinLines_cons, List.append_assoc, List.cons_append]
    exact readLine_line hl hlen

lemma take_joinLines {ls : List Bytes} {k : Nat} (hk : k < (joinLines ls).length) :
    ∃ j m, ∃ h : j < ls.length, m ≤ ls[j].length ∧
      k = (joinLines (ls.take j)).length + m ∧
      (joinLines ls).take k = joinLines (ls.take j) ++ ls[j].take m := by
  induction ls generalizing k with
  | nil => exact absurd hk (Nat.not_lt_zero k)
  | cons l ls ih =>
    by_cases hl : k ≤ l.length
    · refine ⟨0, k, Nat.zero_lt_succ _, hl, by simp, ?_⟩
      simp [List.take_append_of_le_length hl]
    · have hk' : k - (l.length + 1) < (joinLines ls).length := by
        simp only [joinLines_cons, List.length_append, List.length_cons] at hk
        omega
      obtain ⟨j, m, hj, hm, hkm, htake⟩ := ih hk'
      refine ⟨j + 1, m, Nat.succ_lt_succ hj, hm, ?_, ?_⟩
      · simp only [List.take_succ_cons, joinLines_cons, List.length_append, List.length_cons]
        omega
      · have hsplit : k = l.length + (k - (l.length + 1) + 1) := by omega
        rw [joinLines_cons, hsplit, List.take_length_add_append, List.take_succ_cons, htake]
        simp

/-! ### What the loader makes of the lines -/

/-- `pls_load` returns `NULL`. -/
def ReturnsNull {α : Type} (r : Except LoadStop α) : Prop := r = .error .null ∨ r = .error .unassigned

/-- The playlist that the header of `p`'s file describes. -/
def headerPls (p : Pls) : Pls :=
  { id := p.id, name := p.name, repeatMode := p.repeatMode, shuffled := p.shuffled, useCount := 0,
    len := 0, alloc := 0, poolst := p.poolst, vidx := nullArray, pidx := nullArray, iidx := nullArray,
    dirty := true }

/-- The rest of a load after the header of `p`'s file. -/
def loadItems (p : Pls) (f : Bytes) : Except LoadStop Pls :=
  match maybeRealloc (headerPls p) p.len with
  | none => .error .noReturn
  | some q => loadEntries p.len p.len 0 q f

lemma returnsNull_bind {α β : Type} {r : Except LoadStop α} {k : α → Except LoadStop β}
    (hr : (∃ a, r = .ok a) ∨ ReturnsNull r) (hk : ∀ a, r = .ok a → ReturnsNull (k a)) :
    ReturnsNull (r >>= k) := by
  rcases hr with ⟨a, rfl⟩ | rfl | rfl
  · exact hk a rfl
  · exact Or.inl rfl
  · exact Or.inr rfl

lemma convert_returns (buf : Bytes) {stop : LoadStop} (h : stop = .null ∨ stop = .unassigned) :
    (∃ x, convert buf stop = .ok x) ∨ ReturnsNull (convert buf stop) := by
  unfold convert
  split
  · right
    rcases h with rfl | rfl
    · exact Or.inl rfl
    · exact Or.inr rfl
  · exact Or.inl ⟨_, rfl⟩

lemma convertVersion_returns (buf : Bytes) :
    (∃ x, convertVersion buf = .ok x) ∨ ReturnsNull (convertVersion buf) := by
  unfold convertVersion
  split
  · exact Or.inr (Or.inl rfl)
  · exact convert_returns _ (Or.inl rfl)

lemma require_returns (b : Bool) : (∃ u, require b = .ok u) ∨ ReturnsNull (require b) := by
  cases b
  · exact Or.inr (Or.inl rfl)
  · exact Or.inl ⟨(), rfl⟩

/-- The file ends here. -/
def AtEnd (f : Bytes) : Prop := readLine f = .error .null

lemma returnsNull_readLine {α : Type} {ls : List Bytes} {f : Bytes} (h : Reads AtEnd ls f)
    {k : Bytes × Bytes → Except LoadStop α}
    (hk : ∀ l ls' rest, ls = l :: ls' → Reads AtEnd ls' rest → ReturnsNull (k (l, rest))) :
    ReturnsNull (readLine f >>= k) := by
  cases ls with
  | nil =>
    have hend : readLine f = .error .null := h
    rw [hend]
    exact Or.inl rfl
  | cons l ls =>
    obtain ⟨rest, hread, hrest⟩ := h
    rw [hread]
    exact hk l ls rest rfl hrest

lemma loadText_header_cut {ls : List Bytes} {f : Bytes} (h : Reads AtEnd ls f) (hn : ls.length < 7)
    (hversion : ls.length < 6 ∨ ls.head? = some [86, 50]) : ReturnsNull (loadText f) := by
  have hnull := Or.inl (b := LoadStop.null = .unassigned) (rfl : LoadStop.null = .null)
  have huna := Or.inr (a := LoadStop.unassigned = .null) (rfl : LoadStop.unassigned = .unassigned)
  unfold loadText
  refine returnsNull_readLine h fun l1 ls1 f1 e1 h1 => ?_
  refine returnsNull_bind (convertVersion_returns l1) fun version hv => ?_
  refine returnsNull_bind (require_returns _) fun _ _ => returnsNull_bind (require_returns _) fun _ _ => ?_
  refine returnsNull_readLine h1 fun l2 ls2 f2 e2 h2 => ?_
  refine returnsNull_bind (convert_returns l2 hnull) fun _ _ => ?_
  refine returnsNull_bind (require_returns _) fun _ _ => ?_
  refine returnsNull_readLine h2 fun l3 ls3 f3 e3 h3 => ?_
  refine returnsNull_readLine h3 fun l4 ls4 f4 e4 h4 => ?_
  refine returnsNull_bind (convert_returns l4 huna) fun _ _ => ?_
  refine returnsNull_readLine h4 fun l5 ls5 f5 e5 h5 => ?_
  refine returnsNull_bind (convert_returns l5 huna) fun _ _ => ?_
  refine returnsNull_readLine h5 fun l6 ls6 f6 e6 h6 => ?_
  refine returnsNull_bind (convert_returns l6 hnull) fun _ _ => ?_
  refine returnsNull_bind (require_returns _) fun _ _ => ?_
  -- six lines were read, so that there is no seventh
  subst e1 e2 e3 e4 e5 e6
  simp only [List.length_cons, List.head?_cons, Option.some.injEq] at hn hversion
  have hl1 : l1 = [86, 50] := hversion.resolve_left (by omega)
  have hls6 : ls6 = [] := List.eq_nil_of_length_eq_zero (by omega)
  have hv2 : version = 2 := by
    have hscan : convertVersion [86, 50] = .ok 2 := by decide
    rw [hl1, hscan] at hv
    exact (Except.ok.inj hv).symm
  subst hls6
  have hend : readLine f6 = .error .null := h6
  rw [loadPoolst, if_pos hv2, hend]
  exact Or.inl rfl

lemma convert_decimal {n : Nat} (h : n < 2 ^ 31) (stop : LoadStop) :
    convert (decimal n) stop = .ok (n : Int) := by
  rw [convert, scanInt_decimal h]

lemma convert_int32 (z : Int32) (stop : LoadStop) :
    convert (decimalInt z.toInt) stop = .ok z.toInt := by
  have h1 := z.le_toInt
  have h2 := z.toInt_lt
  rw [convert, scanInt_decimalInt (by omega) (by omega)]

lemma loadText_header {p : Pls} (hid : p.id < 2 ^ 31) (hlen : p.len < 2 ^ 31)
    (hpool : p.poolst < 2 ^ 31) (hname : p.name ≠ []) {P : Bytes → Prop} {f : Bytes}
    (h : Reads P (headerLines p) f) : ∃ rest, P rest ∧ loadText f = loadItems p rest := by
  obtain ⟨f1, h1, f2, h2, f3, h3, f4, h4, f5, h5, f6, h6, f7, h7, hP⟩ := h
  refine ⟨f7, hP, ?_⟩
  have hversion : convertVersion [86, 50] = .ok 2 := by decide
  have hnew : plsNew true p.id p.name = some
      { headerPls p with repeatMode := 0, shuffled := 0, poolst := 0 } := by
    simp [plsNew, plsSetName, hname, headerPls]
  unfold loadText loadPoolst
  simp only [h1, h2, h3, h4, h5, h6, h7, hversion, convert_decimal hid, convert_decimal hlen,
    convert_decimal hpool, convert_int32, bind, Except.bind, require]
  simp [hnew, headerPls]
  rfl

lemma scanItem_line {n : Nat} (h : n < 2 ^ 32) (s : Bytes) : scanItem (decimal n ++ 44 :: s) =
    if firstWord s = [] then none else some (n, firstWord s) := by
  have hcomma : (44 :: s).takeWhile isdigit = [] := by simp [isdigit]
  have hword := scanWord_eq s
  rw [scanItem, scanUnsigned_decimal h hcomma]
  simp only [Option.bind_some, scanChar, if_true]
  cases hs : scanWord s with
  | none =>
    rw [hs] at hword
    split at hword
    · rename_i hnil
      simp [hnil]
    · cases hword
  | some r =>
    rw [hs] at hword
    split at hword
    · cases hword
    · rename_i hne
      simp only [Option.map_some, Option.some.injEq] at hword
      simp [hne, hword]

lemma loadEntries_accepts {src : Pls} {len : Nat} (hlen : len < 2 ^ 32) {P : Bytes → Prop} {n i : Nat}
    {p : Pls} {f : Bytes} (h : Reads P ((List.range' i n).map (itemLine src)) f)
    (halloc : i + n ≤ p.alloc) (hle : len ≤ p.alloc) (hs : p.shuffled = src.shuffled)
    (hindex : ∀ j, i ≤ j → j < i + n → playingIndex src j < len)
    (hword : ∀ j, i ≤ j → j < i + n → firstWord (src.vidx j) ≠ []) :
    loadEntries len n i p f = .ok { p with
      len := i + n
      vidx := forUpto n (fun k b => Function.update b (i + k) (firstWord (src.vidx (i + k)))) p.vidx
      pidx := if p.shuffled = 0 then p.pidx
        else forUpto n (fun k b => Function.update b (i + k) (src.pidx (i + k))) p.pidx
      iidx := if p.shuffled = 0 then p.iidx
        else forUpto n (fun k b => Function.update b (src.pidx (i + k)) (i + k)) p.iidx } := by
  induction n generalizing i p f with
  | zero => simp [loadEntries]
  | succ n ih =>
    rw [List.range'_succ, List.map_cons] at h
    obtain ⟨rest, hread, hrest⟩ := h
    have hidx := hindex i le_rfl (by omega)
    have hitem : scanItem (itemLine src i) = some (playingIndex src i, firstWord (src.vidx i)) := by
      rw [itemLine, scanItem_line (by omega), if_neg (hword i le_rfl (by omega))]
    have hi : i < p.alloc := by omega
    have hcell : playingIndex src i < p.alloc := hidx.trans_le hle
    have hnext : ∀ k, i + 1 + k = i + (k + 1) := fun k => by omega
    rw [loadEntries]
    simp only [hread, hitem, bind, Except.bind, require, decide_eq_true hidx, storeCell, if_pos hi,
      if_pos hcell, if_true]
    by_cases hs0 : p.shuffled = 0
    · rw [if_neg (not_not.mpr hs0), ih hrest]
      · simp only [forUpto_front n, hnext, Nat.add_zero, hs0, if_true]
      · dsimp only
        omega
      · exact hle
      · exact hs
      · exact fun j h1 h2 => hindex j (by omega) (by omega)
      · exact fun j h1 h2 => hword j (by omega) (by omega)
    · have hplay : playingIndex src i = src.pidx i := by
        rw [playingIndex, if_pos (hs ▸ hs0)]
      rw [if_pos hs0, ih hrest]
      · simp only [forUpto_front n, hnext, Nat.add_zero, hs0, if_false, hplay]
      · dsimp only
        omega
      · exact hle
      · exact hs
      · exact fun j h1 h2 => hindex j (by omega) (by omega)
      · exact fun j h1 h2 => hword j (by omega) (by omega)

/-- No further line, or one that is no item. -/
def NoItem (f : Bytes) : Prop :=
  readLine f = .error .null ∨ ∃ b rest, readLine f = .ok (b, rest) ∧ scanItem b = none

/-- An item that is missing or has no object id makes the loader give up, whatever lines
stand before it. -/
lemma loadEntries_null {len : Nat} {ls : List Bytes} {n i : Nat} {p : Pls} {f : Bytes}
    (h : Reads NoItem ls f) (hn : ls.length < n) (halloc : i + n ≤ p.alloc) (hle : len ≤ p.alloc) :
    loadEntries len n i p f = .error .null := by
  induction ls generalizing n i p f with
  | nil =>
    obtain ⟨n, rfl⟩ := Nat.exists_eq_succ_of_ne_zero (Nat.ne_zero_of_lt hn)
    rw [loadEntries]
    rcases h with h | ⟨b, rest, h, hb⟩
    · simp only [h, bind, Except.bind]
    · simp only [h, hb, bind, Except.bind]
  | cons l ls ih =>
    obtain ⟨n, rfl⟩ := Nat.exists_eq_succ_of_ne_zero (Nat.ne_zero_of_lt hn)
    obtain ⟨rest, hread, hrest⟩ := h
    rw [List.length_cons] at hn
    rw [loadEntries]
    simp only [hread, bind, Except.bind]
    cases hitem : scanItem l with
    | none => rfl
    | some item =>
      obtain ⟨pidx, oid⟩ := item
      have hi : i < p.alloc := by omega
      by_cases hidx : pidx < len
      · have hcell : pidx < p.alloc := hidx.trans_le hle
        simp only [require, decide_eq_true hidx, storeCell, if_pos hi, if_pos hcell, if_true]
        split
        · exact ih hrest (by omega) (by dsimp only; omega) hle
        · exact ih hrest (by omega) (by dsimp only; omega) hle
      · simp [require, hidx]

/-! ### Complete files -/

/-- `q` holds everything that a file of `p` is to bring back. -/
structure SameSaved (p q : Pls) : Prop where
  id_eq : q.id = p.id
  name_eq : q.name = p.name
  repeatMode_eq : q.repeatMode = p.repeatMode
  shuffled_eq : q.shuffled = p.shuffled
  poolst_eq : q.poolst = p.poolst
  len_eq : q.len = p.len
  items : cells q.vidx p.len = cells p.vidx p.len
  order : p.shuffled ≠ 0 → cells q.pidx p.len = cells p.pidx p.len ∧
    cells q.iidx p.len = cells p.iidx p.len

/-- Everything in the playlist fits the file format but for white space in the object
ids. The newline of the last line need not fit into the buffer. -/
structure Savable (p : Pls) : Prop where
  wf : p.WF
  id_lt : p.id < 2 ^ 31
  len_lt : p.len < 2 ^ 31
  poolst_lt : p.poolst < 2 ^ 31
  name_ne : p.name ≠ []
  name_line : IsLine p.name
  name_len : p.name.length < 2048
  oid_line : ∀ i < p.len, IsLine (p.vidx i)
  line_len : ∀ i < p.len, (itemLine p i).length ≤ 2048
  line_fits : ∀ i, i + 1 < p.len → (itemLine p i).length < 2048

/-- The playlist with every object id cut down to its first word. -/
def wordsOf (p : Pls) : Pls := { p with vidx := fun i => firstWord (p.vidx i) }

lemma playingIndex_lt {p : Pls} (h : p.WF) {i : Nat} (hi : i < p.len) : playingIndex p i < p.len := by
  unfold playingIndex
  split
  · rename_i hs
    exact (Pls.WF.ordered h hs).pair.maps i hi
  · exact hi

lemma isLine_itemLine {p : Pls} {i : Nat} (h : IsLine (p.vidx i)) : IsLine (itemLine p i) :=
  (isLine_decimal _).append ⟨by simpa using h.1, by simpa using h.2⟩

lemma loadItems_alloc {p : Pls} (h : p.len < 2 ^ 31) : ∃ a, p.len ≤ a ∧
    maybeRealloc (headerPls p) p.len = some { headerPls p with alloc := a } := by
  obtain ⟨q, hq⟩ := Option.isSome_iff_exists.mp
    (maybeRealloc_isSome (p := headerPls p) (n := p.len) le_rfl (by simp [headerPls]; omega))
  obtain ⟨heq, -, hle⟩ := maybeRealloc_spec hq
  have hmod : (0 + p.len) % 2 ^ 32 = p.len := by
    rw [Nat.zero_add, Nat.mod_eq_of_lt (by omega)]
  refine ⟨q.alloc, ?_, by rw [hq, ← heq]⟩
  rw [← hmod]
  exact hle

/-- All items have an object id: they are loaded up to their first white space. -/
lemma loadItems_words {p : Pls} (h : p.WF) (hlen : p.len < 2 ^ 31) {P : Bytes → Prop} {f : Bytes}
    (hread : Reads P ((List.range p.len).map (itemLine p)) f)
    (hword : ∀ i < p.len, firstWord (p.vidx i) ≠ []) :
    ∃ q, loadItems p f = .ok q ∧ q.WF ∧ SameSaved (wordsOf p) q := by
  obtain ⟨a, ha, hrealloc⟩ := loadItems_alloc hlen
  rw [List.range_eq_range'] at hread
  have hload := loadEntries_accepts (p := { headerPls p with alloc := a }) (by omega)
    hread (by simpa using ha) ha rfl (fun j _ hj => playingIndex_lt h (by omega))
    (fun j _ hj => hword j (by omega))
  unfold loadItems
  rw [hrealloc]
  dsimp only at hload ⊢
  rw [hload]
  have hitem : ∀ i < p.len, forUpto p.len
      (fun k b => Function.update b (0 + k) (firstWord (p.vidx (0 + k)))) nullArray i =
        firstWord (p.vidx i) := by
    intro i hi
    rw [forUpto_store nullArray 0 (fun k => firstWord (p.vidx (0 + k))), if_pos (by omega)]
    simp
  have hpidx : ∀ i < p.len, forUpto p.len
      (fun k b => Function.update b (0 + k) (p.pidx (0 + k))) nullArray i = p.pidx i := by
    intro i hi
    rw [forUpto_store nullArray 0 (fun k => p.pidx (0 + k)), if_pos (by omega)]
    simp
  have hiidx : p.shuffled ≠ 0 → ∀ i < p.len, forUpto p.len
      (fun k b => Function.update b (p.pidx (0 + k)) (0 + k)) nullArray i = p.iidx i := by
    intro hs i hi
    have hpair := (Pls.WF.ordered h hs).pair
    obtain ⟨j, hj, rfl⟩ := hpair.surj hi
    have hhit := forUpto_scatter_hit (fun _ => True) p.pidx nullArray
      (fun a ha b hb _ _ => hpair.inj ha hb) hj trivial
    rw [hpair.left j hj]
    simpa using hhit
  refine ⟨_, rfl, ?_, ?_⟩
  · apply wf_of_ordered
    · simpa using ha
    · intro hs
      have hs' : p.shuffled ≠ 0 := hs
      have ho := Pls.WF.ordered h hs'
      refine ⟨by simpa [headerPls] using ho.poolst_le, ?_⟩
      simp only [Nat.zero_add, headerPls, hs', if_false]
      simp only [Nat.zero_add] at hpidx hiidx
      exact ho.pair.congr hpidx (hiidx hs')
  · refine ⟨rfl, rfl, rfl, rfl, rfl, by simp [wordsOf], cells_congr hitem, fun hs => ?_⟩
    have hs' : p.shuffled ≠ 0 := hs
    simp only [headerPls, hs', if_false]
    exact ⟨cells_congr hpidx, cells_congr (hiidx hs')⟩

lemma loadItems_wordless {p : Pls} (h : p.WF) (hlen : p.len < 2 ^ 31) {P : Bytes → Prop} {f : Bytes}
    (hread : Reads P ((List.range p.len).map (itemLine p)) f) {i : Nat} (hi : i < p.len)
    (hword : firstWord (p.vidx i) = []) : loadItems p f = .error .null := by
  obtain ⟨a, ha, hrealloc⟩ := loadItems_alloc hlen
  have hsplit : (List.range p.len).map (itemLine p) =
      (List.range i).map (itemLine p) ++
        itemLine p i :: (List.range' (i + 1) (p.len - (i + 1))).map (itemLine p) := by
    rw [List.range_eq_range', List.range_eq_range', ← List.map_cons, ← List.range'_succ, ← List.map_append]
    have happ := List.range'_append_1 (s := 0) (m := i) (n := p.len - (i + 1) + 1)
    rw [Nat.zero_add] at happ
    rw [happ]
    congr 2
    omega
  rw [hsplit, reads_append] at hread
  have hbad : scanItem (itemLine p i) = none := by
    have hlt := playingIndex_lt h hi
    rw [itemLine, scanItem_line (by omega), if_pos hword]
  unfold loadItems
  rw [hrealloc]
  refine loadEntries_null (hread.mono ?_) (by simpa using hi) (by simpa using ha) ha
  rintro f ⟨rest, hl, -⟩
  exact Or.inr ⟨_, rest, hl, hbad⟩

lemma header_fits {p : Pls} (hid : p.id < 2 ^ 31) (hlen : p.len < 2 ^ 31) (hpool : p.poolst < 2 ^ 31)
    (hname : IsLine p.name) (hnamelen : p.name.length < 2048) :
    ∀ l ∈ headerLines p, IsLine l ∧ l.length < 2048 := by
  have hdec : ∀ n, n < 2 ^ 31 → (decimal n).length < 2048 := by
    intro n hn
    have hle : (Nat.toDigits 10 n).length ≤ 10 :=
      (Nat.length_toDigits_le_iff (by decide) (by decide)).mpr (by omega)
    rw [decimal, List.length_map]
    omega
  have hint : ∀ z : Int32, IsLine (decimalInt z.toInt) ∧ (decimalInt z.toInt).length < 2048 := by
    intro z
    have h1 := z.le_toInt
    have h2 := z.toInt_lt
    have hle : (Nat.toDigits 10 z.toInt.natAbs).length ≤ 10 :=
      (Nat.length_toDigits_le_iff (by decide) (by decide)).mpr (by omega)
    have hd := isLine_decimal z.toInt.natAbs
    unfold decimalInt
    split
    · refine ⟨⟨by simpa using hd.1, by simpa using hd.2⟩, ?_⟩
      rw [List.length_cons, decimal, List.length_map]
      omega
    · refine ⟨hd, ?_⟩
      rw [decimal, List.length_map]
      omega
  intro l hl
  simp only [headerLines, List.mem_cons, List.not_mem_nil, or_false] at hl
  rcases hl with rfl | rfl | rfl | rfl | rfl | rfl | rfl
  · exact ⟨by unfold IsLine; decide, by decide⟩
  · exact ⟨isLine_decimal _, hdec _ hid⟩
  · exact ⟨hname, hnamelen⟩
  · exact hint _
  · exact hint _
  · exact ⟨isLine_decimal _, hdec _ hlen⟩
  · exact ⟨isLine_decimal _, hdec _ hpool⟩

lemma Savable.header_fits {p : Pls} (h : Savable p) : ∀ l ∈ headerLines p, IsLine l ∧ l.length < 2048 :=
  MafwShared.header_fits h.id_lt h.len_lt h.poolst_lt h.name_line h.name_len

end MafwShared
