import MafwShared.Proofs.SaveLoad

/-!
# Complete and cut files

A file of a playlist is `fileFront`, `fileTail` and a newline, where the tail is the last
object id, or the pool start of a playlist without items. A file cut before its tail is
rejected. One cut inside of it is the file, without its newline, of the playlist
`shortened`, and is loaded as that one would be.
-/

namespace MafwShared
open CLib

/-! ### Where a cut file stops to be rejected -/

/-- What a file ends with but for the last newline. -/
def fileTail (p : Pls) : Bytes := if p.len = 0 then decimal p.poolst else p.vidx (p.len - 1)

/-- What a file begins with. -/
def fileFront (p : Pls) : Bytes :=
  if p.len = 0 then joinLines ((headerLines p).take 6)
  else joinLines (headerLines p ++ (List.range (p.len - 1)).map (itemLine p)) ++
    (decimal (playingIndex p (p.len - 1)) ++ [44])

/-- The playlist whose file is that of `p` less the last `d` bytes before the newline. -/
def shortened (p : Pls) (d : Nat) : Pls :=
  if p.len = 0 then { p with poolst := p.poolst / 10 ^ d }
  else { p with vidx := Function.update p.vidx (p.len - 1) ((fileTail p).take ((fileTail p).length - d)) }

lemma fileLines_eq (p : Pls) : fileLines p =
    if p.len = 0 then (headerLines p).take 6 ++ [decimal p.poolst]
    else headerLines p ++ (List.range (p.len - 1)).map (itemLine p) ++ [itemLine p (p.len - 1)] := by
  unfold fileLines
  by_cases h : p.len = 0
  · rw [if_pos h, h]
    rfl
  · obtain ⟨n, hn⟩ := Nat.exists_eq_succ_of_ne_zero h
    rw [if_neg h, hn, List.range_succ, List.map_append, Nat.succ_sub_one, List.append_assoc]
    rfl

lemma fileText_eq (p : Pls) : fileText p = fileFront p ++ fileTail p ++ [10] := by
  unfold fileText fileFront fileTail
  rw [fileLines_eq]
  by_cases h : p.len = 0
  · rw [if_pos h, if_pos h, if_pos h]
    simp
  · rw [if_neg h, if_neg h, if_neg h]
    simp [itemLine]

@[simp] lemma shortened_id (p : Pls) (d : Nat) : (shortened p d).id = p.id := by
  unfold shortened; split <;> rfl

@[simp] lemma shortened_name (p : Pls) (d : Nat) : (shortened p d).name = p.name := by
  unfold shortened; split <;> rfl

@[simp] lemma shortened_len (p : Pls) (d : Nat) : (shortened p d).len = p.len := by
  unfold shortened; split <;> rfl

@[simp] lemma shortened_alloc (p : Pls) (d : Nat) : (shortened p d).alloc = p.alloc := by
  unfold shortened; split <;> rfl

@[simp] lemma shortened_shuffled (p : Pls) (d : Nat) : (shortened p d).shuffled = p.shuffled := by
  unfold shortened; split <;> rfl

@[simp] lemma shortened_repeatMode (p : Pls) (d : Nat) : (shortened p d).repeatMode = p.repeatMode := by
  unfold shortened; split <;> rfl

@[simp] lemma shortened_pidx (p : Pls) (d : Nat) : (shortened p d).pidx = p.pidx := by
  unfold shortened; split <;> rfl

@[simp] lemma shortened_iidx (p : Pls) (d : Nat) : (shortened p d).iidx = p.iidx := by
  unfold shortened; split <;> rfl

lemma shortened_poolst_le (p : Pls) (d : Nat) : (shortened p d).poolst ≤ p.poolst := by
  unfold shortened
  split
  · exact Nat.div_le_self _ _
  · exact le_rfl

@[simp] lemma playingIndex_shortened (p : Pls) (d i : Nat) :
    playingIndex (shortened p d) i = playingIndex p i := by
  simp [playingIndex]

lemma shortened_vidx (p : Pls) (d : Nat) {i : Nat} (hi : i + 1 < p.len) :
    (shortened p d).vidx i = p.vidx i := by
  rw [shortened, if_neg (by omega)]
  exact Function.update_of_ne (by omega) _ _

lemma shortened_vidx_last (p : Pls) (d : Nat) (h : p.len ≠ 0) :
    (shortened p d).vidx (p.len - 1) = (p.vidx (p.len - 1)).take ((p.vidx (p.len - 1)).length - d) := by
  rw [shortened, if_neg h, fileTail, if_neg h]
  exact Function.update_self _ _ _

lemma fileTail_shortened {p : Pls} {d : Nat} (hd : d < (fileTail p).length) :
    fileTail (shortened p d) = (fileTail p).take ((fileTail p).length - d) := by
  by_cases h : p.len = 0
  · have htail : fileTail p = decimal p.poolst := if_pos h
    rw [htail] at hd ⊢
    rw [take_decimal _ _ hd, fileTail, shortened_len, if_pos h, shortened, if_pos h]
  · rw [fileTail, shortened_len, if_neg h, shortened_vidx_last p d h, fileTail, if_neg h]

lemma fileFront_shortened (p : Pls) (d : Nat) : fileFront (shortened p d) = fileFront p := by
  unfold fileFront
  rw [shortened_len]
  by_cases h : p.len = 0
  · rw [if_pos h, if_pos h]
    simp [headerLines]
  · have hpool : (shortened p d).poolst = p.poolst := by rw [shortened, if_neg h]
    have hheader : headerLines (shortened p d) = headerLines p := by simp [headerLines, hpool]
    have hitems : (List.range (p.len - 1)).map (itemLine (shortened p d)) =
        (List.range (p.len - 1)).map (itemLine p) := by
      apply List.map_congr_left
      intro i hi
      rw [List.mem_range] at hi
      rw [itemLine, itemLine, playingIndex_shortened, shortened_vidx p d (by omega)]
    rw [if_neg h, if_neg h, hheader, hitems, playingIndex_shortened]

lemma take_fileText {p : Pls} {k : Nat} (hk : k < (fileText p).length)
    (htail : (fileText p).length ≤ k + (fileTail p).length) :
    (fileText p).take k =
      fileFront (shortened p ((fileText p).length - 1 - k)) ++
        fileTail (shortened p ((fileText p).length - 1 - k)) := by
  have htotal : (fileText p).length = (fileFront p).length + (fileTail p).length + 1 := by
    rw [fileText_eq]
    simp [Nat.add_assoc]
  rw [fileFront_shortened, fileTail_shortened (by omega)]
  have hk' : k = (fileFront p).length + ((fileTail p).length - ((fileText p).length - 1 - k)) := by omega
  conv_lhs => rw [fileText_eq, List.append_assoc, hk', List.take_length_add_append]
  rw [List.take_append_of_le_length (by omega)]

lemma Savable.shortened {p : Pls} (h : Savable p) (d : Nat) : Savable (shortened p d) := by
  have hvidx : ∀ i < p.len, ∃ m, (MafwShared.shortened p d).vidx i = (p.vidx i).take m := by
    intro i hi
    by_cases hlast : i + 1 < p.len
    · exact ⟨(p.vidx i).length, by rw [shortened_vidx p d hlast, List.take_length]⟩
    · obtain rfl : i = p.len - 1 := by omega
      exact ⟨_, shortened_vidx_last p d (by omega)⟩
  have hline : ∀ i < p.len, (itemLine (MafwShared.shortened p d) i).length ≤ (itemLine p i).length := by
    intro i hi
    obtain ⟨m, hm⟩ := hvidx i hi
    simp only [itemLine, playingIndex_shortened, hm, List.length_append, List.length_cons,
      List.length_take]
    omega
  have hpool := shortened_poolst_le p d
  constructor
  · refine ⟨by simpa using h.wf.len_le, fun hs => ?_, fun hs => ?_, fun hs => ?_⟩
    · rw [shortened_shuffled] at hs
      rw [shortened_len]
      exact hpool.trans (h.wf.poolst_le hs)
    · simpa using h.wf.perm (by simpa using hs)
    · simpa using h.wf.inverse (by simpa using hs)
  · simpa using h.id_lt
  · simpa using h.len_lt
  · exact hpool.trans_lt h.poolst_lt
  · simpa using h.name_ne
  · simpa using h.name_line
  · simpa using h.name_len
  · intro i hi
    rw [shortened_len] at hi
    obtain ⟨m, hm⟩ := hvidx i hi
    rw [hm]
    exact (h.oid_line i hi).take m
  · intro i hi
    rw [shortened_len] at hi
    exact (hline i hi).trans (h.line_len i hi)
  · intro i hi
    rw [shortened_len] at hi
    exact (hline i (by omega)).trans_lt (h.line_fits i hi)

/-! ### What is loaded -/

lemma reads_fileLines {p : Pls} (h : Savable p) {e : Bytes} (he : e = [10] ∨ e = []) :
    Reads (fun _ => True) (fileLines p) (fileFront p ++ fileTail p ++ e) := by
  have hheader := h.header_fits
  rw [fileLines_eq]
  unfold fileFront fileTail
  by_cases hl : p.len = 0
  · rw [if_pos hl, if_pos hl, if_pos hl, List.append_assoc, reads_append]
    obtain ⟨rest, hlast⟩ := readLine_last (isLine_decimal p.poolst) (decimal_ne_nil p.poolst)
      (Nat.le_of_lt (hheader _ (by simp [headerLines])).2) he
    exact reads_joinLines (fun l hl => hheader l (List.mem_of_mem_take hl)) ⟨rest, hlast, trivial⟩
  · have hi : p.len - 1 < p.len := by omega
    obtain ⟨rest, hlast⟩ := readLine_last (isLine_itemLine (h.oid_line _ hi))
      (by simp [itemLine]) (h.line_len _ hi) he
    have htext : ∀ t, t ++ (decimal (playingIndex p (p.len - 1)) ++ [44]) ++ p.vidx (p.len - 1) ++ e =
        t ++ (itemLine p (p.len - 1) ++ e) := by
      intro t
      simp [itemLine]
    rw [if_neg hl, if_neg hl, if_neg hl, htext, reads_append]
    refine reads_joinLines (fun l hl => ?_) ⟨rest, hlast, trivial⟩
    rcases List.mem_append.mp hl with hl | hl
    · exact hheader l hl
    · obtain ⟨i, hi, rfl⟩ := List.mem_map.mp hl
      rw [List.mem_range] at hi
      exact ⟨isLine_itemLine (h.oid_line i (by omega)), h.line_fits i (by omega)⟩

lemma loadText_of_reads {p : Pls} (h : Savable p) {P : Bytes → Prop} {ls : List Bytes} {f : Bytes}
    (hread : Reads P (headerLines p ++ ls) f) :
    ∃ rest, Reads P ls rest ∧ loadText f = loadItems p rest := by
  rw [reads_append] at hread
  exact loadText_header h.id_lt h.len_lt h.poolst_lt h.name_ne hread

/-- A file is loaded when each of its items has an object id, and then each object id is
cut at its first white space. The last newline may be missing. -/
theorem loadText_words {p : Pls} (h : Savable p) {e : Bytes} (he : e = [10] ∨ e = [])
    (hword : ∀ i < p.len, firstWord (p.vidx i) ≠ []) :
    ∃ q, loadText (fileFront p ++ fileTail p ++ e) = .ok q ∧ q.WF ∧ SameSaved (wordsOf p) q := by
  obtain ⟨rest, hitems, hload⟩ := loadText_of_reads h (reads_fileLines h he)
  rw [hload]
  exact loadItems_words h.wf h.len_lt hitems hword

theorem loadText_wordless {p : Pls} (h : Savable p) {e : Bytes} (he : e = [10] ∨ e = []) {i : Nat}
    (hi : i < p.len) (hword : firstWord (p.vidx i) = []) :
    loadText (fileFront p ++ fileTail p ++ e) = .error .null := by
  obtain ⟨rest, hitems, hload⟩ := loadText_of_reads h (reads_fileLines h he)
  rw [hload]
  exact loadItems_wordless h.wf h.len_lt hitems hi hword

lemma loadItems_cut {p : Pls} (hlen : p.len < 2 ^ 31) {ls : List Bytes} {f : Bytes}
    (hread : Reads NoItem ls f) (hn : ls.length < p.len) : loadItems p f = .error .null := by
  obtain ⟨a, ha, hrealloc⟩ := loadItems_alloc hlen
  unfold loadItems
  rw [hrealloc]
  exact loadEntries_null hread hn (by simpa using ha) ha

lemma reads_piece {ls : List Bytes} {l : Bytes} (h : ∀ l ∈ ls, IsLine l ∧ l.length < 2048)
    (hl : IsLine l) (hlen : l.length ≤ 2048) :
    (l = [] ∧ Reads AtEnd ls (joinLines ls ++ l)) ∨
      (l ≠ [] ∧ Reads AtEnd (ls ++ [l]) (joinLines ls ++ l)) := by
  by_cases hne : l = []
  · subst hne
    exact Or.inl ⟨rfl, reads_joinLines h readLine_nil⟩
  · refine Or.inr ⟨hne, ?_⟩
    rw [reads_append]
    exact reads_joinLines h ⟨[], readLine_end hl hne hlen, readLine_nil⟩

lemma scanItem_cut (n : Nat) (s : Bytes) {m : Nat} (h : m ≤ (decimal n).length + 1) :
    scanItem ((decimal n ++ 44 :: s).take m) = none := by
  by_cases hm : m ≤ (decimal n).length
  · rw [List.take_append_of_le_length hm]
    by_cases hne : (decimal n).take m = []
    · rw [hne]
      rfl
    · have hscan := scanNumber_unsigned (t := [])
        (fun c hc => mem_decimal (n := n) (List.mem_of_mem_take hc)) hne rfl
      rw [List.append_nil] at hscan
      simp [scanItem, scanUnsigned, hscan, scanChar]
  · have hm' : m = (decimal n).length + 1 := by omega
    have htake : (decimal n ++ 44 :: s).take m = decimal n ++ 44 :: [] := by
      rw [hm', List.take_length_add_append]
      rfl
    have hscan := scanNumber_unsigned (t := [44]) (fun c => mem_decimal (n := n)) (decimal_ne_nil n) rfl
    rw [htake]
    simp [scanItem, scanUnsigned, hscan, scanChar, scanWord]

lemma length_joinLines_last {ls : List Bytes} {j : Nat} (hj : j < ls.length) (hlast : j + 1 = ls.length) :
    (joinLines ls).length = (joinLines (ls.take j)).length + (ls[j].length + 1) := by
  have hsplit : ls = ls.take j ++ [ls[j]] := by
    rw [List.take_append_getElem hj, List.take_of_length_le (by omega)]
  conv_lhs => rw [hsplit, joinLines_append]
  simp

lemma loadText_cut_header {p : Pls} (h : Savable p) {j m : Nat} (hj : j < 6) :
    ReturnsNull (loadText (joinLines ((headerLines p).take j) ++ ((headerLines p).getD j []).take m)) := by
  have hheader := h.header_fits
  have hmem : (headerLines p).getD j [] ∈ headerLines p := by
    have h7 : j < (headerLines p).length := by
      rw [show (headerLines p).length = 7 from rfl]
      omega
    rw [List.getD_eq_getElem?_getD, List.getElem?_eq_getElem h7, Option.getD_some]
    exact List.getElem_mem h7
  have hlen : ((headerLines p).take j).length = j := by
    rw [List.length_take, show (headerLines p).length = 7 from rfl]
    omega
  rcases reads_piece (fun l hl => hheader l (List.mem_of_mem_take hl)) ((hheader _ hmem).1.take m)
    ((List.length_take_le' _ _).trans (hheader _ hmem).2.le) with ⟨-, hread⟩ | ⟨-, hread⟩
  · exact loadText_header_cut hread (by omega) (Or.inl (by omega))
  · refine loadText_header_cut hread (by simp [hlen]; omega) ?_
    by_cases hj5 : j < 5
    · left
      simp [hlen]
      omega
    · right
      obtain rfl : j = 5 := by omega
      rfl

lemma loadText_cut_poolst {p : Pls} (h : Savable p) (hl : p.len ≠ 0) {m : Nat} :
    ReturnsNull (loadText (joinLines ((headerLines p).take 6) ++ (decimal p.poolst).take m)) := by
  have hheader := h.header_fits
  have hpool := hheader (decimal p.poolst) (by simp [headerLines])
  rcases reads_piece (fun l hl => hheader l (List.mem_of_mem_take hl)) (hpool.1.take m)
    ((List.length_take_le' _ _).trans hpool.2.le) with ⟨-, hread⟩ | ⟨hne, hread⟩
  · exact loadText_header_cut hread (show 6 < 7 by decide) (Or.inr rfl)
  · -- the piece is the pool start of another playlist with the same header otherwise
    have hm : 0 < m := by
      by_contra h0
      exact hne (by rw [Nat.eq_zero_of_not_pos h0, List.take_zero])
    have hpos := List.length_pos_iff.mpr (decimal_ne_nil p.poolst)
    obtain ⟨d, hd⟩ : ∃ d, (decimal p.poolst).take m = decimal (p.poolst / 10 ^ d) := by
      refine ⟨(decimal p.poolst).length - m, ?_⟩
      rw [← take_decimal _ _ (by omega)]
      by_cases hle : m ≤ (decimal p.poolst).length
      · rw [Nat.sub_sub_self hle]
      · rw [List.take_of_length_le (by omega), List.take_of_length_le (by omega)]
    have hlt := (Nat.div_le_self p.poolst (10 ^ d)).trans_lt h.poolst_lt
    rw [hd] at hread ⊢
    obtain ⟨rest, hrest, hload⟩ := loadText_header (p := { p with poolst := p.poolst / 10 ^ d })
      h.id_lt h.len_lt hlt h.name_ne hread
    rw [hload]
    left
    exact loadItems_cut (p := { p with poolst := p.poolst / 10 ^ d }) h.len_lt
      (show Reads NoItem [] rest from Or.inl hrest) (Nat.pos_of_ne_zero hl)

lemma loadText_cut_items {p : Pls} (h : Savable p) {i m : Nat} (hi : i < p.len)
    (hm : i + 1 = p.len → m ≤ (decimal (playingIndex p i)).length + 1) :
    loadText (joinLines (headerLines p ++ (List.range i).map (itemLine p)) ++ (itemLine p i).take m) =
      .error .null := by
  have hfits : ∀ l ∈ headerLines p ++ (List.range i).map (itemLine p), IsLine l ∧ l.length < 2048 := by
    intro l hl
    rcases List.mem_append.mp hl with hl | hl
    · exact h.header_fits l hl
    · obtain ⟨c, hc, rfl⟩ := List.mem_map.mp hl
      rw [List.mem_range] at hc
      exact ⟨isLine_itemLine (h.oid_line c (by omega)), h.line_fits c (by omega)⟩
  rcases reads_piece hfits ((isLine_itemLine (h.oid_line i hi)).take m)
    ((List.length_take_le' _ _).trans (h.line_len i hi)) with ⟨-, hread⟩ | ⟨hne, hread⟩
  · obtain ⟨rest, hrest, hload⟩ := loadText_of_reads h hread
    rw [hload]
    exact loadItems_cut h.len_lt (hrest.mono fun f hf => Or.inl hf) (by simpa using hi)
  · rw [List.append_assoc] at hread
    obtain ⟨rest, hrest, hload⟩ := loadText_of_reads h hread
    rw [hload]
    by_cases hlast : i + 1 = p.len
    · rw [reads_append] at hrest
      refine loadItems_cut h.len_lt (hrest.mono ?_) (by simpa using hi)
      rintro f ⟨f', hf, -⟩
      exact Or.inr ⟨_, f', hf, scanItem_cut _ _ (hm hlast)⟩
    · exact loadItems_cut h.len_lt (hrest.mono fun f hf => Or.inl hf) (by simp; omega)

/-- A file cut before its tail is rejected. -/
theorem loadText_cut {p : Pls} (h : Savable p) {k : Nat}
    (hk : k + (fileTail p).length < (fileText p).length) : ReturnsNull (loadText ((fileText p).take k)) := by
  have hlt : k < (joinLines (fileLines p)).length := by
    rw [← fileText]
    omega
  obtain ⟨j, m, hj, hm, hkm, htake⟩ := take_joinLines hlt
  have h7 : (headerLines p).length = 7 := rfl
  have hcount : (fileLines p).length = 7 + p.len := by simp [fileLines, h7]
  have htotal := length_joinLines_last hj
  rw [← fileText] at htotal
  rw [fileText, htake]
  by_cases hheader : j < 6
  · have hline : (fileLines p)[j] = (headerLines p).getD j [] := by
      rw [List.getD_eq_getElem?_getD, List.getElem?_eq_getElem (by omega), Option.getD_some]
      exact List.getElem_append_left (by omega)
    have hpre : (fileLines p).take j = (headerLines p).take j :=
      List.take_append_of_le_length (by omega)
    rw [hline, hpre]
    exact loadText_cut_header h hheader
  · by_cases hpool : j = 6
    · subst hpool
      have hline : (fileLines p)[6] = decimal p.poolst := rfl
      have hpre : (fileLines p).take 6 = (headerLines p).take 6 := rfl
      rw [hline, hpre]
      by_cases hl : p.len = 0
      · have htail : fileTail p = decimal p.poolst := if_pos hl
        rw [hline] at htotal
        rw [htail] at hk
        obtain rfl : m = 0 := by omega
        rw [List.take_zero]
        exact loadText_header_cut
          (reads_joinLines (fun l hl => h.header_fits l (List.mem_of_mem_take hl)) readLine_nil)
          (show 6 < 7 by decide) (Or.inr rfl)
      · exact loadText_cut_poolst h hl
    · obtain ⟨i, rfl⟩ : ∃ i, j = 7 + i := ⟨j - 7, by omega⟩
      have hi : i < p.len := by omega
      have hline : (fileLines p)[7 + i] = itemLine p i := by
        simp only [fileLines]
        rw [List.getElem_append_right (by omega)]
        simp [h7]
      have hpre : (fileLines p).take (7 + i) = headerLines p ++ (List.range i).map (itemLine p) := by
        rw [fileLines, List.take_append, List.take_of_length_le (by omega), h7, Nat.add_sub_cancel_left,
          ← List.map_take, List.take_range, Nat.min_eq_left hi.le]
      rw [hline] at htotal ⊢
      rw [hpre]
      refine Or.inl (loadText_cut_items h hi fun hlast => ?_)
      have htail : fileTail p = p.vidx i := by
        rw [fileTail, if_neg (by omega), show p.len - 1 = i by omega]
      have hlen : (itemLine p i).length = (decimal (playingIndex p i)).length + 1 + (p.vidx i).length := by
        simp only [itemLine, List.length_append, List.length_cons]
        omega
      rw [htail] at hk
      have ht := htotal (by omega)
      omega

@[simp] lemma shortened_zero (p : Pls) : shortened p 0 = p := by
  unfold shortened fileTail
  split
  · simp
  · simp

lemma take_fileText_shortened (p : Pls) {k : Nat} (hk : (fileText p).length ≤ k + (fileTail p).length) :
    ∃ e, (e = [10] ∨ e = []) ∧ (fileText p).take k =
      fileFront (shortened p ((fileText p).length - 1 - k)) ++
        fileTail (shortened p ((fileText p).length - 1 - k)) ++ e := by
  by_cases hlt : k < (fileText p).length
  · refine ⟨[], Or.inr rfl, ?_⟩
    rw [take_fileText hlt hk, List.append_nil]
  · refine ⟨[10], Or.inl rfl, ?_⟩
    rw [show (fileText p).length - 1 - k = 0 by omega, shortened_zero, ← fileText_eq,
      List.take_of_length_le (by omega)]

/-- A file cut inside its tail is loaded as that of a shortened playlist. -/
theorem loadText_shortened {p : Pls} (h : Savable p) {k : Nat}
    (hk : (fileText p).length ≤ k + (fileTail p).length)
    (hword : ∀ i < p.len, firstWord ((shortened p ((fileText p).length - 1 - k)).vidx i) ≠ []) :
    ∃ q, loadText ((fileText p).take k) = .ok q ∧ q.WF ∧
      SameSaved (wordsOf (shortened p ((fileText p).length - 1 - k))) q := by
  obtain ⟨e, he, htake⟩ := take_fileText_shortened p hk
  rw [htake]
  exact loadText_words (h.shortened _) he (by simpa using hword)

theorem loadText_shortened_wordless {p : Pls} (h : Savable p) {k : Nat}
    (hk : (fileText p).length ≤ k + (fileTail p).length) {i : Nat} (hi : i < p.len)
    (hword : firstWord ((shortened p ((fileText p).length - 1 - k)).vidx i) = []) :
    loadText ((fileText p).take k) = .error .null := by
  obtain ⟨e, he, htake⟩ := take_fileText_shortened p hk
  rw [htake]
  exact loadText_wordless (h.shortened _) he (by simpa using hi) hword

/-! ### The round trip -/

lemma savable_of_lines {p : Pls} (hwf : p.WF) (hid : p.id < 2 ^ 31) (hlen : p.len < 2 ^ 31)
    (hpool : p.poolst < 2 ^ 31) (hname : p.name ≠ [] ∧ IsLine p.name)
    (hoids : ∀ i < p.len, IsLine (p.vidx i)) (hlines : ∀ l ∈ fileLines p, l.length + 1 ≤ 2048) :
    Savable p := by
  have hitem : ∀ i < p.len, (itemLine p i).length < 2048 := by
    intro i hi
    apply hlines
    exact List.mem_append_right _ (List.mem_map.mpr ⟨i, List.mem_range.mpr hi, rfl⟩)
  refine ⟨hwf, hid, hlen, hpool, hname.1, hname.2, ?_, hoids, fun i hi => (hitem i hi).le,
    fun i hi => hitem i (by omega)⟩
  apply hlines
  simp [fileLines, headerLines]

lemma plsSave_written {c : SaveCalls} {p : Pls} {fn : Bytes} {fs fs' : FS}
    (h : plsSave c p fn fs = (true, fs')) : fs' fn = some (.regular (c.flushed p)) := by
  have hne : fn ≠ fn ++ tmpSuffix := by
    intro he
    have hlen := congrArg List.length he
    simp [tmpSuffix] at hlen
  unfold plsSave at h
  dsimp only at h
  split at h
  · cases h
  · split at h
    · cases h
    · split at h
      · cases h
      · split at h
        · cases h
        · obtain rfl := (Prod.mk.inj h).2
          rw [FS.move, FS.store, FS.store, Function.update_of_ne hne, Function.update_self, FS.store,
            Function.update_self]

lemma plsSave_succeed (p : Pls) (fn : Bytes) (fs : FS) : (plsSave .succeed p fn fs).1 = true := by
  have hprint : SaveCalls.succeed.failedPrint p = none := by
    rw [SaveCalls.failedPrint, List.findSome?_eq_none_iff]
    exact fun _ _ => rfl
  unfold plsSave
  dsimp only
  rw [hprint]
  rfl

/-- The unchecked flush wrote the text, the last newline perhaps excepted. -/
def SaveCalls.Flushes (c : SaveCalls) (p : Pls) : Prop :=
  ∀ k, c.fflush = some k → (fileText p).length ≤ k + 1

lemma SameSaved.unique {p p' q : Pls} (h : SameSaved p q) (h' : SameSaved p' q) : SameSaved p p' := by
  have hlen : p'.len = p.len := h'.len_eq.symm.trans h.len_eq
  have hs : p'.shuffled = p.shuffled := h'.shuffled_eq.symm.trans h.shuffled_eq
  refine ⟨h'.id_eq.symm.trans h.id_eq, h'.name_eq.symm.trans h.name_eq,
    h'.repeatMode_eq.symm.trans h.repeatMode_eq, hs, h'.poolst_eq.symm.trans h.poolst_eq, hlen, ?_,
    fun hs0 => ?_⟩
  · rw [← h.items, ← hlen, h'.items]
  · obtain ⟨h1, h2⟩ := h.order hs0
    obtain ⟨h1', h2'⟩ := h'.order (hs ▸ hs0)
    rw [hlen] at h1' h2'
    exact ⟨by rw [← h1, h1'], by rw [← h2, h2']⟩

lemma SameSaved.refl (p : Pls) : SameSaved p p := ⟨rfl, rfl, rfl, rfl, rfl, rfl, rfl, fun _ => ⟨rfl, rfl⟩⟩

lemma SameSaved.symm {p q : Pls} (h : SameSaved p q) : SameSaved q p := (SameSaved.refl q).unique h

lemma SameSaved.trans {p q r : Pls} (h : SameSaved p q) (h' : SameSaved q r) : SameSaved p r := h.unique h'.symm

/-- Cutting anything off the tail, or a word off an object id, changes the playlist. -/
lemma sameSaved_shortened {p : Pls} {d : Nat} (hd : d < (fileTail p).length)
    (h : SameSaved p (wordsOf (shortened p d))) :
    d = 0 ∧ ∀ i < p.len, ∀ c ∈ p.vidx i, isspace c = false := by
  have hitem : ∀ i < p.len, firstWord ((shortened p d).vidx i) = p.vidx i :=
    cells_inj.mp h.items
  have hd0 : d = 0 := by
    by_cases hl : p.len = 0
    · have hpool : p.poolst / 10 ^ d = p.poolst := by
        have hp := h.poolst_eq
        rw [wordsOf, shortened, if_pos hl] at hp
        exact hp
      have htail : fileTail p = decimal p.poolst := if_pos hl
      rw [htail] at hd
      by_contra hne
      have hlt : 1 < 10 ^ d := Nat.one_lt_pow hne (by decide)
      have hzero : p.poolst = 0 := by
        by_contra hpos
        have := Nat.div_lt_self (Nat.pos_of_ne_zero hpos) hlt
        omega
      rw [hzero] at hd
      have hone : (decimal 0).length = 1 := rfl
      omega
    · have hlast := congrArg List.length (hitem (p.len - 1) (by omega))
      have hle : (firstWord ((shortened p d).vidx (p.len - 1))).length ≤
          (p.vidx (p.len - 1)).length - d := by
        rw [shortened_vidx_last p d hl]
        refine (List.takeWhile_sublist _).length_le.trans ((List.dropWhile_sublist _).length_le.trans ?_)
        exact List.length_take_le _ _
      have htail : fileTail p = p.vidx (p.len - 1) := if_neg hl
      rw [htail] at hd
      omega
  subst hd0
  refine ⟨rfl, fun i hi => firstWord_eq_self_iff.mp ?_⟩
  have hi' := hitem i hi
  rwa [shortened_zero] at hi'

/-- A file that a successful save has written brings the playlist back exactly when no
object id contains white space, unless the flush failed without being noticed. -/
theorem save_load_roundTrip {p : Pls} (hwf : p.WF) (hid : p.id < 2 ^ 31) (hlen : p.len < 2 ^ 31)
    (hpool : p.poolst < 2 ^ 31) (hname : p.name ≠ [] ∧ IsLine p.name)
    (hoids : ∀ i < p.len, p.vidx i ≠ [] ∧ IsLine (p.vidx i))
    (hlines : ∀ l ∈ fileLines p, l.length + 1 ≤ 2048) {c : SaveCalls} {fn : Bytes} {fs fs' : FS}
    (hsave : plsSave c p fn fs = (true, fs')) :
    (∃ q, plsLoad fs' fn = .ok q ∧ SameSaved p q) ↔
      c.Flushes p ∧ ∀ i < p.len, ∀ ch ∈ p.vidx i, isspace ch = false := by
  have h := savable_of_lines hwf hid hlen hpool hname (fun i hi => (hoids i hi).2) hlines
  have htailpos : 0 < (fileTail p).length := by
    apply List.length_pos_iff.mpr
    unfold fileTail
    split
    · exact decimal_ne_nil _
    · exact (hoids _ (by omega)).1
  -- the text written, as a cut of the whole text
  obtain ⟨k, hk, hflush⟩ : ∃ k, fs' fn = some (.regular ((fileText p).take k)) ∧
      (c.Flushes p ↔ (fileText p).length ≤ k + 1) := by
    rw [plsSave_written hsave]
    cases hc : c.fflush with
    | none =>
      refine ⟨(fileText p).length, by simp [SaveCalls.flushed, hc], ?_⟩
      simp [SaveCalls.Flushes, hc]
    | some k => exact ⟨k, by simp [SaveCalls.flushed, hc], by simp [SaveCalls.Flushes, hc]⟩
  have hload : plsLoad fs' fn = loadText ((fileText p).take k) := by rw [plsLoad, hk]
  rw [hload, hflush]
  constructor
  · rintro ⟨q, hq, hsame⟩
    have htail : (fileText p).length ≤ k + (fileTail p).length := by
      by_contra hcut
      rcases loadText_cut h (not_le.mp hcut) with he | he <;> rw [he] at hq <;> cases hq
    have hword : ∀ i < p.len, firstWord ((shortened p ((fileText p).length - 1 - k)).vidx i) ≠ [] := by
      intro i hi hnil
      rw [loadText_shortened_wordless h htail hi hnil] at hq
      cases hq
    obtain ⟨q', hq', -, hsame'⟩ := loadText_shortened h htail hword
    rw [hq] at hq'
    cases hq'
    obtain ⟨hd, hspace⟩ := sameSaved_shortened (by omega) (hsame.unique hsame')
    exact ⟨by omega, hspace⟩
  · rintro ⟨hfull, hspace⟩
    have hd : (fileText p).length - 1 - k = 0 := by omega
    have hword : ∀ i < p.len, firstWord (p.vidx i) = p.vidx i := fun i hi =>
      firstWord_eq_self_iff.mpr (hspace i hi)
    obtain ⟨q, hq, -, hsame⟩ := loadText_shortened h (k := k) (by omega) (by
      intro i hi
      rw [hd, shortened_zero, hword i hi]
      exact (hoids i hi).1)
    rw [hd, shortened_zero] at hsame
    refine ⟨q, hq, hsame.id_eq, hsame.name_eq, hsame.repeatMode_eq, hsame.shuffled_eq, hsame.poolst_eq,
      hsame.len_eq, ?_, hsame.order⟩
    exact hsame.items.trans (cells_congr hword)

/-- A playlist with the one item `oid`. -/
def singleton (oid : Bytes) : Pls :=
  { id := 7, name := [112], repeatMode := 0, shuffled := 0, useCount := 0, len := 1, alloc := 16,
    poolst := 0, vidx := fun _ => oid, pidx := nullArray, iidx := nullArray, dirty := true }

lemma singleton_wf (oid : Bytes) : (singleton oid).WF :=
  ⟨Nat.le_of_ble_eq_true rfl, fun h => absurd rfl h, fun h => absurd rfl h, fun h => absurd rfl h⟩

/-- `a::b` comes back. -/
theorem save_load_roundTrip_uuid :
    ∃ q, plsLoad (plsSave .succeed (singleton [97, 58, 58, 98]) [110] fun _ => none).2 [110] = .ok q ∧
      SameSaved (singleton [97, 58, 58, 98]) q := by
  have hoid : ([97, 58, 58, 98] : Bytes) ≠ [] ∧ IsLine [97, 58, 58, 98] := ⟨by decide, by unfold IsLine; decide⟩
  refine (save_load_roundTrip (c := .succeed) (singleton_wf _) (by decide) (by decide) (by decide)
    ⟨by decide, by unfold IsLine; decide⟩ (fun _ _ => hoid) (by decide) rfl).mpr
    ⟨fun _ h => (by cases h), fun _ _ ch hch => ?_⟩
  have hmem : ch = 97 ∨ ch = 58 ∨ ch = 58 ∨ ch = 98 := by simpa [singleton] using hch
  rcases hmem with rfl | rfl | rfl | rfl <;> rfl

/-- `a b` comes back as `a`. -/
theorem save_load_drops_word : ∃ p : Pls, ∃ fs' : FS, p.WF ∧ 0 < p.id ∧ p.id < 2 ^ 31 ∧
    (p.repeatMode = 0 ∨ p.repeatMode = 1) ∧ p.len < 2 ^ 31 ∧ p.poolst < 2 ^ 31 ∧
    (p.name ≠ [] ∧ IsLine p.name) ∧ (∀ i < p.len, p.vidx i ≠ [] ∧ IsLine (p.vidx i)) ∧
    (∀ l ∈ fileLines p, l.length + 1 ≤ 2048) ∧
    plsSave .succeed p [110] (fun _ => none) = (true, fs') ∧
    ∃ q, plsLoad fs' [110] = .ok q ∧ cells p.vidx p.len = [[97, 32, 98]] ∧
      cells q.vidx q.len = [[97]] ∧ ¬ SameSaved p q := by
  have hoid : ([97, 32, 98] : Bytes) ≠ [] ∧ IsLine [97, 32, 98] := ⟨by decide, by unfold IsLine; decide⟩
  refine ⟨singleton [97, 32, 98], _, singleton_wf _, by decide, by decide, Or.inl rfl, by decide,
    by decide, ⟨by decide, by unfold IsLine; decide⟩, fun _ _ => hoid, by decide, rfl, _, rfl,
    by decide, by decide, fun h => ?_⟩
  exact absurd h.items (by decide)

end MafwShared
