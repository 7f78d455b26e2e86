import MafwShared.FileFormat
import MafwShared.Proofs.ReadBack

/-!
# What a load checks

`pls_load` stops at the first line that does not pass its checks, at the end of the file or
when it has all items. `Verdict` says which of these a file ends in; the header is gone
through line by line, the items by induction.
-/

namespace MafwShared
open CLib

/-! ### The lines of a file -/

/-- Reading ends here, with `stop`. -/
def Stuck (stop : LoadStop) (f : Bytes) : Prop := readLine f = .error stop

lemma takeLine_append (n : Nat) (f : Bytes) : (takeLine n f).1 ++ (takeLine n f).2 = f := by
  induction n generalizing f with
  | zero => rfl
  | succ n ih =>
    cases f with
    | nil => rfl
    | cons c f =>
      rw [takeLine]
      split
      · rfl
      · exact congrArg (c :: ·) (ih f)

lemma readLine_shortens {f l rest : Bytes} (h : readLine f = .ok (l, rest)) : rest.length < f.length := by
  cases f with
  | nil => cases h
  | cons c f =>
    have happ := congrArg List.length (takeLine_append 2048 (c :: f))
    have hne : (takeLine 2048 (c :: f)).1 ≠ [] := by
      rw [takeLine]
      split <;> exact List.cons_ne_nil _ _
    have hrest : rest = (takeLine 2048 (c :: f)).2 := by
      unfold readLine fgetsnl at h
      rw [fgets, if_neg (List.cons_ne_nil c f)] at h
      dsimp only at h
      split at h
      · cases h
      · cases h
        rfl
    have hpos := List.length_pos_iff.mpr hne
    rw [List.length_append] at happ
    rw [hrest]
    omega

lemma reads_textLines {n : Nat} {f : Bytes} (h : f.length ≤ n) :
    Reads (Stuck (textLines n f).2) (textLines n f).1 f := by
  induction n generalizing f with
  | zero =>
    rw [List.eq_nil_of_length_eq_zero (Nat.le_zero.mp h)]
    exact readLine_nil
  | succ n ih =>
    rw [textLines]
    cases hread : readLine f with
    | error stop => exact hread
    | ok r =>
      have hlt : r.2.length < f.length := readLine_shortens hread
      exact ⟨r.2, hread, ih (by omega)⟩

lemma reads_linesOf (f : Bytes) : Reads (Stuck (endOf f)) (linesOf f) f := reads_textLines le_rfl

lemma readLine_error {f : Bytes} {stop : LoadStop} (h : readLine f = .error stop) :
    stop = .null ∨ stop = .outOfBounds := by
  cases hg : fgetsnl f with
  | error e =>
    have he : e = .outOfBounds := by
      unfold fgetsnl at hg
      split at hg
      · cases hg
      · dsimp only at hg
        split at hg
        · cases hg
          rfl
        · cases hg
    have hread : readLine f = .error e := by rw [readLine, hg]; rfl
    rw [hread] at h
    cases h
    exact Or.inr he
  | ok r =>
    cases r with
    | none =>
      have hread : readLine f = .error .null := by rw [readLine, hg]; rfl
      rw [hread] at h
      cases h
      exact Or.inl rfl
    | some r =>
      have hread : readLine f = .ok r := by rw [readLine, hg]; rfl
      rw [hread] at h
      cases h

lemma textLines_end (n : Nat) (f : Bytes) : (textLines n f).2 = .null ∨ (textLines n f).2 = .outOfBounds := by
  induction n generalizing f with
  | zero => exact Or.inl rfl
  | succ n ih =>
    rw [textLines]
    cases hread : readLine f with
    | error stop => exact readLine_error hread
    | ok r => exact ih r.2

lemma endOf_cases (f : Bytes) : endOf f = .null ∨ endOf f = .outOfBounds := textLines_end _ f

/-! ### Fields -/

section
variable {lines : List Bytes} {stop : LoadStop}

lemma numberOn_lt {i : Nat} {x : Int} (h : numberOn lines i = some x) : i < lines.length := by
  by_contra hi
  rw [numberOn, List.getElem?_eq_none (not_lt.mp hi)] at h
  cases h

lemma reads_drop {k : Nat} {f : Bytes} (h : Reads (Stuck stop) (lines.drop k) f) :
    lines.length ≤ k ∧ readLine f = .error stop ∨
      ∃ l rest, lines[k]? = some l ∧ readLine f = .ok (l, rest) ∧ Reads (Stuck stop) (lines.drop (k + 1)) rest := by
  cases hdrop : lines.drop k with
  | nil =>
    rw [hdrop] at h
    exact .inl ⟨List.drop_eq_nil_iff.mp hdrop, h⟩
  | cons l ls =>
    rw [hdrop] at h
    obtain ⟨rest, hread, hrest⟩ := h
    have hl : lines[k]? = some l := by rw [← Nat.add_zero k, ← List.getElem?_drop, hdrop]; rfl
    have hls : lines.drop (k + 1) = ls := by rw [← List.tail_drop, hdrop]; rfl
    exact .inr ⟨l, rest, hl, hread, hls ▸ hrest⟩

lemma convert_number {k : Nat} {l : Bytes} (hl : lines[k]? = some l) (st : LoadStop) :
    numberOn lines k = none ∧ convert l st = .error st ∨ ∃ x, numberOn lines k = some x ∧ convert l st = .ok x := by
  have hnumber : numberOn lines k = (scanInt l).map Prod.fst := by rw [numberOn, hl]; rfl
  cases hscan : scanInt l with
  | none =>
    rw [hscan] at hnumber
    exact .inl ⟨hnumber, by rw [convert, hscan]⟩
  | some r =>
    rw [hscan] at hnumber
    exact .inr ⟨r.1, hnumber, by rw [convert, hscan]⟩

lemma convertVersion_version {l : Bytes} (hl : lines[0]? = some l) :
    versionOf lines = none ∧ convertVersion l = .error .null ∨
      ∃ x, versionOf lines = some x ∧ convertVersion l = .ok x := by
  have hversion : versionOf lines = ((scanChar 86 l).bind scanInt).map Prod.fst := by rw [versionOf, hl]; rfl
  cases hchar : scanChar 86 l with
  | none =>
    rw [hchar] at hversion
    exact .inl ⟨hversion, by rw [convertVersion, hchar]⟩
  | some s =>
    have hconvert : convertVersion l = convert s .null := by rw [convertVersion, hchar]
    rw [hchar, Option.bind_some] at hversion
    rw [hconvert]
    cases hscan : scanInt s with
    | none =>
      rw [hscan] at hversion
      exact .inl ⟨hversion, by rw [convert, hscan]⟩
    | some r =>
      rw [hscan] at hversion
      exact .inr ⟨r.1, hversion, by rw [convert, hscan]⟩

lemma not_inOrder_version (h : versionOf lines = none) : ¬ InOrder lines 0 := by
  intro hin
  rw [InOrder, h] at hin
  rcases hin with h | h <;> cases h

lemma headerSize_cases (lines : List Bytes) : headerSize lines = 6 ∨ headerSize lines = 7 := by
  unfold headerSize
  split
  · exact Or.inl rfl
  · exact Or.inr rfl

lemma inOrder_item {i : Nat} : InOrder lines (headerSize lines + i) ↔
    ∃ pidx oid, itemOf lines i = some (pidx, oid) ∧ pidx < lengthOf lines := by
  obtain ⟨j, hj⟩ : ∃ j, headerSize lines + i = j + 6 := by
    rcases headerSize_cases lines with h | h
    · exact ⟨i, by omega⟩
    · exact ⟨i + 1, by omega⟩
  have hi : j + 6 - headerSize lines = i := by omega
  rw [hj, InOrder, if_neg (by omega), hi]

lemma FileInOrder.header (h : FileInOrder lines) : HeaderInOrder lines := fun i hi => h i (by omega)

lemma HeaderInOrder.le_length (h : HeaderInOrder lines) : headerSize lines ≤ lines.length := by
  rcases headerSize_cases lines with hsize | hsize
  · obtain ⟨len, hlen, -⟩ : InOrder lines 5 := h 5 (by omega)
    have hlt := numberOn_lt hlen
    omega
  · have h6 : InOrder lines 6 := h 6 (by omega)
    rw [InOrder, if_pos (by omega)] at h6
    obtain ⟨poolst, hpoolst, -⟩ := h6
    have hlt := numberOn_lt hpoolst
    omega

/-! ### Verdicts -/

/-- The loop over the entries has filled the cells up to `i`. -/
structure Entering (lines : List Bytes) (i : Nat) (p : Pls) : Prop where
  item_eq : ∀ j < i, ∃ pidx < lengthOf lines, itemOf lines j = some (pidx, p.vidx j) ∧
    (p.shuffled ≠ 0 → p.pidx j = pidx)
  inverse : p.shuffled ≠ 0 → (∀ j < i, ∀ k < i, p.pidx j = p.pidx k → j = k) →
    ∀ j < i, p.iidx (p.pidx j) = j

/-- How a load of these lines ends, with `stop` behind the last one. -/
inductive Verdict (lines : List Bytes) (stop : LoadStop) (r : Except LoadStop Pls) : Prop
  | unnamed (hheader : HeaderInOrder lines) (hname : lines[2]? = some []) (hr : r = .error .nullDeref)
  | loaded (p : Pls) (hfile : FileInOrder lines) (hname : p.name ≠ []) (hr : r = .ok p)
    (hp : Describes lines p) (halloc : p.len ≤ p.alloc) (hitems : Entering lines p.len p)
  | cut (hcut : CutShort lines) (hname : HeaderInOrder lines → lines[2]? ≠ some []) (hr : r = .error stop)
  | refused (hfile : ¬ FileInOrder lines) (hbad : ∃ i < lines.length, ¬ InOrder lines i)
    (hname : HeaderInOrder lines → lines[2]? ≠ some []) (hr : ReturnsNull r)

namespace Verdict
variable {k : Nat} {f l : Bytes} {α : Type}

lemma bad {r : Except LoadStop Pls} (hk : k < headerSize lines) (hl : lines[k]? = some l)
    (hbad : ¬ InOrder lines k) (hr : ReturnsNull r) : Verdict lines stop r :=
  .refused (fun h => hbad (h.header k hk)) ⟨k, (List.getElem?_eq_some_iff.mp hl).1, hbad⟩
    (fun h => absurd (h k hk) hbad) hr

lemma read {K : Bytes × Bytes → Except LoadStop Pls} (hk : k < headerSize lines)
    (hin : ∀ i < k, InOrder lines i) (h : Reads (Stuck stop) (lines.drop k) f)
    (next : ∀ l rest, lines[k]? = some l → Reads (Stuck stop) (lines.drop (k + 1)) rest →
      Verdict lines stop (K (l, rest))) : Verdict lines stop (readLine f >>= K) := by
  rcases reads_drop h with ⟨hle, hstuck⟩ | ⟨l, rest, hl, hread, hrest⟩
  · have hheader : ¬ HeaderInOrder lines := fun h => by
      have := h.le_length
      omega
    rw [hstuck]
    exact .cut ⟨fun i hi => hin i (by omega), fun h => hheader h.header⟩ (fun h => absurd h hheader) rfl
  · rw [hread]
    exact next l rest hl hrest

lemma require {K : Unit → Except LoadStop Pls} {b : Bool} (hk : k < headerSize lines)
    (hl : lines[k]? = some l) (hbad : b = false → ¬ InOrder lines k)
    (next : b = true → Verdict lines stop (K ())) : Verdict lines stop (require b >>= K) := by
  cases b with
  | false => exact bad hk hl (hbad rfl) (Or.inl rfl)
  | true => exact next rfl

lemma number {K : Int → Except LoadStop Pls} {st : LoadStop} (hk : k < headerSize lines)
    (hl : lines[k]? = some l) (hst : st = .null ∨ st = .unassigned)
    (hbad : numberOn lines k = none → ¬ InOrder lines k)
    (next : ∀ x, numberOn lines k = some x → Verdict lines stop (K x)) :
    Verdict lines stop (convert l st >>= K) := by
  rcases convert_number hl st with ⟨hnumber, hconvert⟩ | ⟨x, hnumber, hconvert⟩
  · rw [hconvert]
    refine bad hk hl (hbad hnumber) ?_
    rcases hst with rfl | rfl
    · exact Or.inl rfl
    · exact Or.inr rfl
  · rw [hconvert]
    exact next x hnumber

lemma version {K : Int → Except LoadStop Pls} (hl : lines[0]? = some l)
    (next : ∀ x, versionOf lines = some x → Verdict lines stop (K x)) :
    Verdict lines stop (convertVersion l >>= K) := by
  have hk : 0 < headerSize lines := by
    have := headerSize_cases lines
    omega
  rcases convertVersion_version hl with ⟨hversion, hconvert⟩ | ⟨x, hversion, hconvert⟩
  · rw [hconvert]
    exact bad hk hl (not_inOrder_version hversion) (Or.inl rfl)
  · rw [hconvert]
    exact next x hversion

lemma poolst {K : Int × Bytes → Except LoadStop Pls} {version len : Int} (hv : versionOf lines = some version)
    (hv12 : version = 1 ∨ version = 2) (hlen : numberOn lines 5 = some len) (hpos : 0 ≤ len)
    (hin : ∀ i < 6, InOrder lines i) (h : Reads (Stuck stop) (lines.drop 6) f)
    (next : ∀ poolst rest, poolStartOf lines = some poolst → 0 ≤ poolst → HeaderInOrder lines →
      Reads (Stuck stop) (lines.drop (headerSize lines)) rest → Verdict lines stop (K (poolst, rest))) :
    Verdict lines stop (loadPoolst version len f >>= K) := by
  rcases hv12 with rfl | rfl
  · have hsize : headerSize lines = 6 := by rw [headerSize, if_pos hv]
    have hpool : poolStartOf lines = some len := by rw [poolStartOf, if_pos hv, hlen]
    have hload : loadPoolst 1 len f = .ok (len, f) := rfl
    rw [hload]
    exact next len f hpool hpos (fun i hi => hin i (by omega)) (hsize ▸ h)
  · have hne : versionOf lines ≠ some 1 := by
      rw [hv]
      decide
    have hsize : headerSize lines = 7 := by rw [headerSize, if_neg hne]
    have hpool : poolStartOf lines = numberOn lines 6 := by rw [poolStartOf, if_neg hne]
    have hin6 : InOrder lines 6 ↔ ∃ poolst, numberOn lines 6 = some poolst ∧ 0 ≤ poolst := by
      rw [InOrder, if_pos (by omega)]
    rw [loadPoolst, if_pos rfl, bind_assoc]
    refine read (by omega) hin h fun l rest hl hrest => ?_
    dsimp only
    rw [bind_assoc]
    refine number (by omega) hl (Or.inl rfl) ?_ fun poolst hpoolst => ?_
    · intro hnone hbad
      obtain ⟨poolst, hpoolst, -⟩ := hin6.mp hbad
      rw [hnone] at hpoolst
      cases hpoolst
    rw [bind_assoc]
    refine require (by omega) hl ?_ fun hle => ?_
    · intro hneg hbad
      obtain ⟨poolst', hpoolst', hle⟩ := hin6.mp hbad
      rw [hpoolst] at hpoolst'
      cases hpoolst'
      exact absurd hle (of_decide_eq_false hneg)
    have hin7 : ∀ i < 7, InOrder lines i :=
      Nat.forall_lt_succ_right.mpr ⟨hin, hin6.mpr ⟨poolst, hpoolst, of_decide_eq_true hle⟩⟩
    exact next poolst rest (hpool.trans hpoolst) (of_decide_eq_true hle) (fun i hi => hin7 i (by omega)) (hsize ▸ hrest)

end Verdict

/-! ### Items -/

/-- The cells of an item line that passed its check. -/
def enterItem (p : Pls) (i pidx : Nat) (oid : Bytes) : Pls :=
  { p with
    vidx := Function.update p.vidx i oid
    pidx := if p.shuffled ≠ 0 then Function.update p.pidx i pidx else p.pidx
    iidx := if p.shuffled ≠ 0 then Function.update p.iidx pidx i else p.iidx }

lemma loadEntries_line {len n i pidx : Nat} {p : Pls} {f buf rest oid : Bytes} (hread : readLine f = .ok (buf, rest))
    (hscan : scanItem buf = some (pidx, oid)) (hpidx : pidx < len) (hi : i < p.alloc) (hlen : len ≤ p.alloc) :
    loadEntries len (n + 1) i p f = loadEntries len n (i + 1) (enterItem p i pidx oid) rest := by
  have hcell : pidx < p.alloc := hpidx.trans_le hlen
  rw [loadEntries]
  simp only [hread, hscan, bind, Except.bind, require, decide_eq_true hpidx, storeCell, if_pos hi, if_pos hcell,
    if_true]
  by_cases hs : p.shuffled = 0
  · simp [enterItem, hs]
  · simp [enterItem, hs]

lemma Entering.next {i pidx : Nat} {p : Pls} {oid : Bytes} (h : Entering lines i p)
    (hitem : itemOf lines i = some (pidx, oid)) (hpidx : pidx < lengthOf lines) :
    Entering lines (i + 1) (enterItem p i pidx oid) := by
  refine ⟨fun j hj => ?_, fun hs hinj => ?_⟩
  · by_cases hji : j = i
    · subst hji
      refine ⟨pidx, hpidx, by rw [hitem]; simp [enterItem], fun hs => ?_⟩
      have hs' : p.shuffled ≠ 0 := hs
      simp [enterItem, hs']
    · obtain ⟨k, hk, hitem', hpk⟩ := h.item_eq j (by omega)
      refine ⟨k, hk, by rw [hitem']; simp [enterItem, hji], fun hs => ?_⟩
      have hs' : p.shuffled ≠ 0 := hs
      simp [enterItem, hs', hji, hpk hs']
  · have hs' : p.shuffled ≠ 0 := hs
    have hp : (enterItem p i pidx oid).pidx = Function.update p.pidx i pidx := by simp [enterItem, hs']
    have hq : (enterItem p i pidx oid).iidx = Function.update p.iidx pidx i := by simp [enterItem, hs']
    rw [hp] at hinj
    rw [hp, hq]
    have hold : ∀ j < i, Function.update p.pidx i pidx j = p.pidx j := fun j hj =>
      Function.update_of_ne (by omega) _ _
    have hinv := h.inverse hs' fun j hj k hk he =>
      hinj j (by omega) k (by omega) (by rw [hold j hj, hold k hk, he])
    intro j hj
    by_cases hji : j = i
    · subst hji
      rw [Function.update_self, Function.update_self]
    · have hne : p.pidx j ≠ pidx := fun he =>
        hji (hinj j hj i (by omega) (by rw [hold j (by omega), he, Function.update_self]))
      rw [hold j (by omega), Function.update_of_ne hne, hinv j (by omega)]

/-- What the loop over the entries leaves alone. -/
def SameHeader (p q : Pls) : Prop :=
  { q with len := p.len, vidx := p.vidx, pidx := p.pidx, iidx := p.iidx } = p

lemma SameHeader.of_enterItem {p q : Pls} {i pidx : Nat} {oid : Bytes} (h : SameHeader (enterItem p i pidx oid) q) :
    SameHeader p q := by
  have hp := congrArg (fun x : Pls => ({ x with len := p.len, vidx := p.vidx, pidx := p.pidx, iidx := p.iidx } : Pls)) h
  exact hp

lemma loadEntries_verdict {n i : Nat} {p : Pls} {f : Bytes} (hname : lines[2]? ≠ some [])
    (hin : ∀ k < headerSize lines + i, InOrder lines k) (hn : i + n = lengthOf lines)
    (halloc : lengthOf lines ≤ p.alloc) (h : Reads (Stuck stop) (lines.drop (headerSize lines + i)) f)
    (hp : Entering lines i p) (hdone : ∀ q, SameHeader p q → q.len = lengthOf lines →
      Entering lines q.len q → FileInOrder lines → Verdict lines stop (.ok q)) :
    Verdict lines stop (loadEntries (lengthOf lines) n i p f) := by
  induction n generalizing i p f with
  | zero =>
    obtain rfl : i = lengthOf lines := hn
    exact hdone _ rfl rfl ⟨hp.item_eq, hp.inverse⟩ hin
  | succ n ih =>
    have hsize : FileInOrder lines → InOrder lines (headerSize lines + i) := fun hf => hf _ (by omega)
    rcases reads_drop h with ⟨hle, hstuck⟩ | ⟨l, rest, hl, hread, hrest⟩
    · have hmissing : ¬ FileInOrder lines := by
        intro hf
        obtain ⟨pidx, oid, hitem, -⟩ := inOrder_item.mp (hsize hf)
        rw [itemOf, List.getElem?_eq_none hle] at hitem
        cases hitem
      rw [loadEntries, hstuck]
      exact .cut ⟨fun k hk => hin k (by omega), hmissing⟩ (fun _ => hname) rfl
    · have hscan : itemOf lines i = scanItem l := by rw [itemOf, hl]; rfl
      have hrefused : ∀ r, ¬ InOrder lines (headerSize lines + i) → ReturnsNull r → Verdict lines stop r :=
        fun r hbad hr => .refused (fun hf => hbad (hsize hf))
          ⟨_, (List.getElem?_eq_some_iff.mp hl).1, hbad⟩ (fun _ => hname) hr
      rw [inOrder_item, hscan] at hrefused
      cases hitem : scanItem l with
      | none =>
        rw [hitem] at hrefused
        rw [loadEntries, hread]
        simp only [bind, Except.bind, hitem]
        refine hrefused _ ?_ (Or.inl rfl)
        rintro ⟨_, _, h, -⟩
        cases h
      | some item =>
        obtain ⟨pidx, oid⟩ := item
        by_cases hpidx : pidx < lengthOf lines
        · rw [loadEntries_line hread hitem hpidx (by omega) halloc]
          refine ih (fun k hk => ?_) (by omega) halloc hrest (hp.next (hscan.trans hitem) hpidx)
            fun q hq => hdone q hq.of_enterItem
          by_cases hki : k = headerSize lines + i
          · rw [hki]
            exact inOrder_item.mpr ⟨pidx, oid, hscan.trans hitem, hpidx⟩
          · exact hin k (by omega)
        · rw [hitem] at hrefused
          rw [loadEntries, hread]
          simp only [bind, Except.bind, hitem, require, decide_eq_false hpidx]
          refine hrefused _ ?_ (Or.inl rfl)
          rintro ⟨_, _, h, hlt⟩
          cases h
          exact hpidx hlt

/-! ### The whole file -/

lemma toInt_ofInt_of_convert {i : Nat} {x : Int} (h : numberOn lines i = some x) : (Int32.ofInt x).toInt = x := by
  obtain ⟨r, hr, rfl⟩ := Option.map_eq_some_iff.mp h
  obtain ⟨l, -, hscan⟩ := Option.bind_eq_some_iff.mp hr
  obtain ⟨⟨neg, m, rest⟩, -, hx⟩ := Option.map_eq_some_iff.mp hscan
  rw [← hx, Int32.toInt_ofInt]
  exact Int.bmod_bmod

lemma loaded_start {id repeatMode shuffled len poolst : Int} {name : Bytes} (hid : numberOn lines 1 = some id)
    (hid0 : 0 ≤ id) (hname : lines[2]? = some name) (hrepeat : numberOn lines 3 = some repeatMode)
    (hshuffled : numberOn lines 4 = some shuffled) (hlen : numberOn lines 5 = some len) (hlen0 : 0 ≤ len)
    (hpool : poolStartOf lines = some poolst) (hpool0 : 0 ≤ poolst) (hne : name ≠ []) :
    ∃ p q, plsNew true id.toNat name = some p ∧
      maybeRealloc { p with
        repeatMode := Int32.ofInt repeatMode, shuffled := Int32.ofInt shuffled, poolst := poolst.toNat }
        len.toNat = some q ∧ len.toNat = lengthOf lines ∧ len.toNat ≤ q.alloc ∧
      ∀ r, SameHeader q r → r.len = lengthOf lines → Entering lines r.len r → Describes lines r ∧ r.name = name ∧
        r.alloc = q.alloc := by
  have hlength : len.toNat = lengthOf lines := by rw [lengthOf, hlen]; rfl
  have hlt : len < 2 ^ 31 := by
    obtain ⟨x, hx, rfl⟩ := Option.map_eq_some_iff.mp hlen
    obtain ⟨l, -, hscan⟩ := Option.bind_eq_some_iff.mp hx
    have hconvert : convert l .null = .ok x.1 := by rw [convert, hscan]
    exact convert_range hconvert
  obtain ⟨p, hp⟩ : ∃ p, plsNew true id.toNat name = some p := ⟨_, by rw [plsNew, if_neg hne]⟩
  have hfields : p.id = id.toNat ∧ p.name = name ∧ p.len = 0 ∧ p.alloc = 0 := by
    rw [plsNew, if_neg hne] at hp
    cases hp
    rw [plsSetName, if_neg hne]
    exact ⟨rfl, rfl, rfl, rfl⟩
  obtain ⟨hpid, hpname, hplen, hpalloc⟩ := hfields
  obtain ⟨q, hq⟩ := Option.isSome_iff_exists.mp (maybeRealloc_isSome (n := len.toNat)
    (p := { p with
      repeatMode := Int32.ofInt repeatMode, shuffled := Int32.ofInt shuffled, poolst := poolst.toNat })
    (by rw [hplen, hpalloc]) (by dsimp only; omega))
  obtain ⟨heq, -, hle⟩ := maybeRealloc_spec hq
  dsimp only at heq hle
  refine ⟨p, q, hp, hq, hlength, by omega, fun r hr hrlen hitems => ?_⟩
  have hsame : r.id = p.id ∧ r.name = p.name ∧ r.repeatMode = Int32.ofInt repeatMode ∧
      r.shuffled = Int32.ofInt shuffled ∧ r.poolst = poolst.toNat ∧ r.alloc = q.alloc := by
    rw [heq] at hr
    exact ⟨(congrArg Pls.id hr :), (congrArg Pls.name hr :), (congrArg Pls.repeatMode hr :),
      (congrArg Pls.shuffled hr :), (congrArg Pls.poolst hr :), (congrArg Pls.alloc hr :)⟩
  obtain ⟨h1, h2, h3, h4, h5, h6⟩ := hsame
  refine ⟨⟨?_, ?_, ?_, ?_, ?_, ?_, ?_⟩, h2.trans hpname, h6⟩
  · rw [hid, h1, hpid, Int.toNat_of_nonneg hid0]
  · rw [hname, h2, hpname]
  · rw [hrepeat, h3, toInt_ofInt_of_convert hrepeat]
  · rw [hshuffled, h4, toInt_ofInt_of_convert hshuffled]
  · rw [hlen, hrlen, ← hlength, Int.toNat_of_nonneg hlen0]
  · rw [hpool, h5, Int.toNat_of_nonneg hpool0]
  · intro i hi
    obtain ⟨pidx, hpidx, hitem⟩ := hitems.item_eq i hi
    exact ⟨pidx, hrlen ▸ hpidx, hitem⟩

theorem loadText_verdict {f : Bytes} (h : Reads (Stuck stop) lines f) : Verdict lines stop (loadText f) := by
  have hsize := headerSize_cases lines
  have h0 : Reads (Stuck stop) (lines.drop 0) f := by rwa [List.drop_zero]
  unfold loadText
  -- the version
  refine Verdict.read (k := 0) (by omega) (fun i hi => absurd hi (Nat.not_lt_zero i)) h0 fun l0 f0 hl0 h1 => ?_
  refine Verdict.version hl0 fun version hv => ?_
  have hin0 : InOrder lines 0 ↔ version = 1 ∨ version = 2 := by
    rw [InOrder, hv, Option.some.injEq, Option.some.injEq]
  refine Verdict.require (k := 0) (by omega) hl0 ?_ fun _ => ?_
  · intro hneg hbad
    have := of_decide_eq_false hneg
    rcases hin0.mp hbad with rfl | rfl <;> exact absurd this (by decide)
  refine Verdict.require (k := 0) (by omega) hl0 (fun hneg hbad => of_decide_eq_false hneg (hin0.mp hbad))
    fun hv12 => ?_
  replace hv12 := of_decide_eq_true hv12
  have hin1 : ∀ i < 1, InOrder lines i :=
    Nat.forall_lt_succ_right.mpr ⟨fun i hi => absurd hi (Nat.not_lt_zero i), hin0.mpr hv12⟩
  -- the id
  refine Verdict.read (k := 1) (by omega) hin1 h1 fun l1 f1 hl1 h2 => ?_
  refine Verdict.number (by omega) hl1 (Or.inl rfl) (fun hnone ⟨id, hid, _⟩ => ?_) fun id hid => ?_
  · rw [hnone] at hid
    cases hid
  refine Verdict.require (by omega) hl1 (fun hneg ⟨id', hid', hle⟩ => ?_) fun hid0 => ?_
  · rw [hid] at hid'
    cases hid'
    exact of_decide_eq_false hneg hle
  replace hid0 := of_decide_eq_true hid0
  have hin2 : ∀ i < 2, InOrder lines i := Nat.forall_lt_succ_right.mpr ⟨hin1, id, hid, hid0⟩
  -- the name
  refine Verdict.read (k := 2) (by omega) hin2 h2 fun name f2 hl2 h3 => ?_
  have hin3 : ∀ i < 3, InOrder lines i := Nat.forall_lt_succ_right.mpr ⟨hin2, trivial⟩
  -- the repeat mode
  refine Verdict.read (k := 3) (by omega) hin3 h3 fun l3 f3 hl3 h4 => ?_
  refine Verdict.number (by omega) hl3 (Or.inr rfl) (fun hnone hin => ?_) fun repeatMode hrepeat => ?_
  · rw [InOrder, hnone] at hin
    cases hin
  have hin4 : ∀ i < 4, InOrder lines i :=
    Nat.forall_lt_succ_right.mpr ⟨hin3, Option.isSome_iff_exists.mpr ⟨_, hrepeat⟩⟩
  -- the shuffle mode
  refine Verdict.read (k := 4) (by omega) hin4 h4 fun l4 f4 hl4 h5 => ?_
  refine Verdict.number (by omega) hl4 (Or.inr rfl) (fun hnone hin => ?_) fun shuffled hshuffled => ?_
  · rw [InOrder, hnone] at hin
    cases hin
  have hin5 : ∀ i < 5, InOrder lines i :=
    Nat.forall_lt_succ_right.mpr ⟨hin4, Option.isSome_iff_exists.mpr ⟨_, hshuffled⟩⟩
  -- the length
  refine Verdict.read (k := 5) (by omega) hin5 h5 fun l5 f5 hl5 h6 => ?_
  refine Verdict.number (by omega) hl5 (Or.inl rfl) (fun hnone ⟨len, hlen, _⟩ => ?_) fun len hlen => ?_
  · rw [hnone] at hlen
    cases hlen
  refine Verdict.require (by omega) hl5 (fun hneg ⟨len', hlen', hle⟩ => ?_) fun hlen0 => ?_
  · rw [hlen] at hlen'
    cases hlen'
    exact of_decide_eq_false hneg hle
  replace hlen0 := of_decide_eq_true hlen0
  have hin6 : ∀ i < 6, InOrder lines i := Nat.forall_lt_succ_right.mpr ⟨hin5, len, hlen, hlen0⟩
  refine Verdict.poolst hv hv12 hlen hlen0 hin6 h6 fun poolst rest hpool hpool0 hheader hrest => ?_
  dsimp only
  by_cases hne : name = []
  · rw [plsNew, if_pos hne]
    exact .unnamed hheader (hne ▸ hl2) rfl
  · obtain ⟨p, q, hnew, hq, hlength, halloc, hdone⟩ :=
      loaded_start hid hid0 hl2 hrepeat hshuffled hlen hlen0 hpool hpool0 hne
    rw [hnew]
    dsimp only
    rw [hq, hlength]
    dsimp only
    refine loadEntries_verdict ?_ hheader (Nat.zero_add _) (hlength ▸ halloc) hrest ?_ fun r hr hrlen hitems hfile => ?_
    · rw [hl2]
      exact fun h => hne (Option.some.inj h)
    · exact ⟨fun j hj => absurd hj (Nat.not_lt_zero j), fun _ _ j hj => absurd hj (Nat.not_lt_zero j)⟩
    · obtain ⟨hdesc, hrname, hralloc⟩ := hdone r hr hrlen hitems
      exact .loaded r hfile (hrname ▸ hne) rfl hdesc (by omega) hitems

/-! ### What the checks leave open -/

lemma number_eq_iff {x : Int32} {n : Option Int} {z : Int} (h : n = some x.toInt) (y : Int32) (hy : y.toInt = z) :
    n = some z ↔ x = y := by
  rw [h, ← hy, Option.some.injEq, Int32.toInt_inj]

lemma Describes.index_eq {p : Pls} (h : Describes lines p) (hs : p.shuffled ≠ 0) {i : Nat} (hi : i < p.len) :
    p.pidx i < p.len ∧ (itemOf lines i).map Prod.fst = some (p.pidx i) := by
  obtain ⟨pidx, hlt, hitem, hpidx⟩ := h.item_eq i hi
  rw [hpidx hs, hitem]
  exact ⟨hlt, rfl⟩

lemma Describes.length_eq {p : Pls} (h : Describes lines p) : lengthOf lines = p.len := by
  rw [lengthOf, h.len_eq]
  rfl

lemma Describes.pair_iff {p : Pls} (h : Describes lines p) (hs : p.shuffled ≠ 0) (hitems : Entering lines p.len p) :
    InversePair p.len p.pidx p.iidx ↔
      ∀ j < p.len, ∀ i < j, (itemOf lines i).map Prod.fst ≠ (itemOf lines j).map Prod.fst := by
  constructor
  · intro hpair j hj i hij he
    rw [(h.index_eq hs (hij.trans hj)).2, (h.index_eq hs hj).2, Option.some.injEq] at he
    exact absurd (hpair.inj (hij.trans hj) hj he) hij.ne
  · intro hdistinct
    refine ⟨fun i hi => (h.index_eq hs hi).1, hitems.inverse hs fun j hj k hk he => ?_⟩
    have hne : ∀ a < p.len, ∀ b < a, p.pidx b ≠ p.pidx a := by
      intro a ha b hb he
      apply hdistinct a ha b hb
      rw [(h.index_eq hs (hb.trans ha)).2, (h.index_eq hs ha).2, he]
    rcases Nat.lt_trichotomy j k with hjk | hjk | hjk
    · exact absurd he (hne k hk j hjk)
    · exact hjk
    · exact absurd he.symm (hne j hj k hjk)

end

/-- Of the files that are loaded, the documented ones are those in which the fields that no
check looks at are in their ranges. -/
lemma documented_iff {f : Bytes} {p : Pls} (hfile : FileInOrder (linesOf f)) (hname : p.name ≠ [])
    (hp : Describes (linesOf f) p) (halloc : p.len ≤ p.alloc) (hitems : Entering (linesOf f) p.len p) :
    Documented (linesOf f) p ∧ p.WF ↔ WithinFormat f := by
  have hlen := hp.length_eq
  have hshuffled : numberOn (linesOf f) 4 ≠ some 0 ↔ p.shuffled ≠ 0 := not_congr (number_eq_iff hp.shuffled_eq 0 rfl)
  constructor
  · rintro ⟨hdoc, hwf⟩
    refine ⟨fun hcut => absurd hfile hcut.2, fun _ => ?_, fun _ => ?_, fun _ => ?_, fun _ => ?_, fun _ hs => ?_,
      fun _ hs => ?_⟩
    · rw [hp.name_eq]
      exact fun h => hname (Option.some.inj h)
    · rw [hp.id_eq]
      have := hdoc.id_pos
      simpa using Nat.ne_of_gt this
    · exact hdoc.repeat_bit.imp (number_eq_iff hp.repeat_eq 0 rfl).mpr (number_eq_iff hp.repeat_eq 1 rfl).mpr
    · exact hdoc.shuffled_bit.imp (number_eq_iff hp.shuffled_eq 0 rfl).mpr (number_eq_iff hp.shuffled_eq 1 rfl).mpr
    · intro poolst hpool
      rw [hp.poolst_eq] at hpool
      cases hpool
      rw [hlen]
      exact Int.ofNat_le.mpr (hdoc.poolst_le (hshuffled.mp hs))
    · rw [hlen]
      exact (hp.pair_iff (hshuffled.mp hs) hitems).mp (Pls.WF.ordered hwf (hshuffled.mp hs)).pair
  · intro h
    have hpool : p.shuffled ≠ 0 → p.poolst ≤ p.len := fun hs => by
      have hle := h.poolst_le hfile (hshuffled.mpr hs) _ hp.poolst_eq
      rw [hlen] at hle
      exact Int.ofNat_le.mp hle
    refine ⟨⟨hp, hfile.header 0 (by have := headerSize_cases (linesOf f); omega), ?_, hname, ?_, ?_, hpool⟩,
      wf_of_ordered halloc fun hs => ⟨hpool hs, ?_⟩⟩
    · have hid := h.id_ne hfile
      rw [hp.id_eq] at hid
      exact Nat.pos_of_ne_zero fun h0 => hid (by rw [h0]; rfl)
    · exact (h.repeat_bit hfile).imp (number_eq_iff hp.repeat_eq 0 rfl).mp (number_eq_iff hp.repeat_eq 1 rfl).mp
    · exact (h.shuffled_bit hfile).imp (number_eq_iff hp.shuffled_eq 0 rfl).mp (number_eq_iff hp.shuffled_eq 1 rfl).mp
    · rw [hp.pair_iff hs hitems, ← hlen]
      exact h.distinct hfile (hshuffled.mpr hs)

/-- `pls_load` does what the format comment says on these files, and on no others. -/
theorem load_documented (f : Bytes) : LoadsDocumented f ↔ WithinFormat f := by
  unfold LoadsDocumented
  rcases loadText_verdict (reads_linesOf f) with
    ⟨hheader, hname, hr⟩ | ⟨p, hfile, hname, hr, hp, halloc, hitems⟩ | ⟨hcut, hname, hr⟩ | ⟨hfile, hbad, hname, hr⟩
  · rw [hr]
    constructor
    · intro h
      rcases h with h | h <;> cases h
    · exact fun h => absurd hname (h.name_ne hheader)
  · rw [hr]
    exact documented_iff hfile hname hp halloc hitems
  · rw [hr]
    have hfile : ∀ {P : Prop}, FileInOrder (linesOf f) → P := fun hf => absurd hf hcut.2
    refine ⟨fun h => ⟨fun _ he => ?_, hname, hfile, hfile, hfile, hfile, hfile⟩, fun h => ?_⟩
    · rw [he] at h
      rcases h with h | h <;> cases h
    exact Or.inl ((endOf_cases f).resolve_right (h.no_nul hcut))
  · have hfile : ∀ {P : Prop}, FileInOrder (linesOf f) → P := fun hf => absurd hf hfile
    refine iff_of_true ?_ ⟨fun hcut => ?_, hname, hfile, hfile, hfile, hfile, hfile⟩
    · rcases hr with hr | hr
      · rw [hr]
        exact Or.inl rfl
      · rw [hr]
        exact Or.inr rfl
    · obtain ⟨i, hi, hbad⟩ := hbad
      exact absurd (hcut.1 i hi) hbad

/-- A repeat mode of 7, a playing index that occurs twice and an empty name. -/
theorem load_undocumented :
    ¬ LoadsDocumented [86, 50, 10, 49, 10, 112, 10, 55, 10, 48, 10, 48, 10, 48, 10] ∧
    ¬ LoadsDocumented [86, 50, 10, 49, 10, 112, 10, 48, 10, 49, 10, 50, 10, 48, 10, 48, 44, 97, 10, 48, 44, 98, 10] ∧
    ¬ LoadsDocumented [86, 50, 10, 49, 10, 10, 48, 10, 48, 10, 48, 10, 48, 10] := by
  refine ⟨?_, ?_, ?_⟩
  · obtain ⟨p, hp, hrepeat⟩ : ∃ p, loadText [86, 50, 10, 49, 10, 112, 10, 55, 10, 48, 10, 48, 10, 48, 10] = .ok p ∧
        p.repeatMode = 7 := ⟨_, rfl, rfl⟩
    unfold LoadsDocumented
    rw [hp]
    rintro ⟨hdoc, -⟩
    rcases hdoc.repeat_bit with h | h <;> rw [hrepeat] at h <;> exact absurd h (by decide)
  · obtain ⟨p, hp, hs, hlen, hpidx⟩ : ∃ p, loadText [86, 50, 10, 49, 10, 112, 10, 48, 10, 49, 10, 50, 10, 48, 10,
        48, 44, 97, 10, 48, 44, 98, 10] = .ok p ∧ p.shuffled = 1 ∧ p.len = 2 ∧ p.pidx 0 = p.pidx 1 :=
      ⟨_, rfl, rfl, rfl, rfl⟩
    unfold LoadsDocumented
    rw [hp]
    rintro ⟨-, hwf⟩
    have hpair := (Pls.WF.ordered hwf (by rw [hs]; decide)).pair
    have h01 := hpair.inj (i := 0) (j := 1) (by omega) (by omega) hpidx
    cases h01
  · have hnull : loadText [86, 50, 10, 49, 10, 10, 48, 10, 48, 10, 48, 10, 48, 10] = .error .nullDeref := rfl
    unfold LoadsDocumented
    rw [hnull]
    intro h
    rcases h with h | h <;> cases h

end MafwShared
