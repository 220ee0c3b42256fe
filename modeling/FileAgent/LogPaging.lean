import FileAgent.LogFiles

set_option relaxedAutoImplicit false
set_option autoImplicit false

/-!
# Paging through a log file

A client reads a log in chunks, forward from its first line or backward from its last one, and asks
for the next chunk at the offset that the last one names. Going backward, the offset of a request is
the last line of its chunk, but the offset named is the one where a chunk would begin, so that lines
between two chunks are left out.

## Main definitions

* `LogFile` — a log file that can be read.
* `LogWalk` — the chunks of a walk.
* `PagingCovers` — both walks return every line once.

## Main results

* `pagingCovers_iff` — when they do.
-/

namespace FileAgent

open PosixPath

/-! ## Requests for a log -/

/-- A log file that can be read, and does not change. -/
structure LogFile where
  fs : LogFileSystem
  cwd : CurrentDirectory
  currentLogPath : Text
  filename : Text
  content : Text
  stat : LogFileStat
  passes : securityCheck cwd filename = true
  present : fs.present (logFilePath filename) = true
  regular : fs.regular (logFilePath filename) = true
  readText : fs.readText (logFilePath filename) = .ok content
  fileStat : fs.fileStat (logFilePath filename) = .ok stat

namespace LogFile

variable (log : LogFile)

/-- The lines of the log. -/
def lines : List Text := readLines log.content

/-- The answer to a request. -/
def request (offset limit : ℤ) (direction : String) : Except LogError LogChunk :=
  (getLogContentChunk log.fs log.cwd log.currentLogPath log.filename offset limit direction).result

/-- The chunk that is returned. -/
def chunk (offset : ℕ) (limit : ℤ) (direction : String) : LogChunk where
  filename := log.filename
  lines := (chunkOf log.lines offset limit direction).1
  chunkInfo := (chunkOf log.lines offset limit direction).2
  sizeBytes := log.stat.size
  modifiedTime := log.stat.modifiedTime
  isCurrent := isCurrentLog log.currentLogPath log.filename

variable {log} {limit : ℤ} {direction : String}

/-- **A request with good parameters** is answered. -/
lemma request_ok (offset : ℕ) (hlimit : 0 < limit ∧ limit ≤ 10000)
    (hdirection : direction = "forward" ∨ direction = "backward") :
    log.request offset limit direction = .ok (log.chunk offset limit direction) := by
  have hlim : (decide (0 < limit) && decide (limit ≤ 10000)) = true := by
    simp [hlimit]
  have hoff : decide ((0 : ℤ) ≤ offset) = true := by simp
  have hdir : (decide (direction = "forward") || decide (direction = "backward")) = true := by
    simpa using hdirection
  simp only [request, getLogContentChunk, LogFileSystem.pathExists, LogFileSystem.isFile,
    LogFileSystem.read, LogFileSystem.stat, log.passes, log.present, log.regular, log.readText,
    log.fileStat, hlim, hoff, hdir]
  rfl

/-- A request before the first line is refused. -/
lemma request_negative {offset : ℤ} (hlimit : 0 < limit ∧ limit ≤ 10000) (hoffset : offset < 0) :
    log.request offset limit direction = .error (.http ⟨400, "Offset must be >= 0"⟩) := by
  have hlim : (decide (0 < limit) && decide (limit ≤ 10000)) = true := by
    simp [hlimit]
  have hoff : decide (0 ≤ offset) = false := by simpa using hoffset
  simp only [request, getLogContentChunk, LogFileSystem.pathExists, LogFileSystem.isFile,
    log.passes, log.present, log.regular, hlim, hoff]
  rfl

end LogFile

/-! ## Walks -/

/-- The offset that a client asks for next. -/
def ChunkInfo.nextOffset (info : ChunkInfo) (direction : String) : Option ℤ :=
  if direction = "backward" then info.nextBackwardOffset
  else info.nextForwardOffset.map fun offset => (offset : ℤ)

/-- A walk: the chunks returned, from the request at `offset` until none is named to go on with. -/
inductive LogWalk (log : LogFile) (limit : ℤ) (direction : String) : ℤ → List LogChunk → Prop
  | last {offset : ℤ} {c : LogChunk} (hc : log.request offset limit direction = .ok c)
      (hnext : c.chunkInfo.nextOffset direction = none) : LogWalk log limit direction offset [c]
  | more {offset next : ℤ} {c : LogChunk} {cs : List LogChunk}
      (hc : log.request offset limit direction = .ok c)
      (hnext : c.chunkInfo.nextOffset direction = some next)
      (hcs : LogWalk log limit direction next cs) : LogWalk log limit direction offset (c :: cs)

/-- The lines of chunks, in the order of the list. -/
def linesOf (cs : List LogChunk) : List Text := cs.flatMap LogChunk.lines

/-- The first chunk ends where the second begins. -/
def EndsBefore (c c' : LogChunk) : Prop :=
  c.chunkInfo.offset + c.chunkInfo.count = c'.chunkInfo.offset

/-- Both walks end, and return every line once: the forward one from offset `0`, the backward one
from the last line, each of its chunks ending right before the previous one starts. -/
structure PagingCovers (log : LogFile) (limit : ℤ) : Prop where
  forward : ∃ cs, LogWalk log limit "forward" 0 cs ∧ linesOf cs = log.lines.map rstripNewline
  backward : ∃ cs, LogWalk log limit "backward" (log.lines.length - 1) cs ∧
    linesOf cs.reverse = log.lines.map rstripNewline ∧ cs.IsChain fun c c' => EndsBefore c' c

section Chunks

variable {lines : List Text} {offset : ℕ} {limit : ℤ}

/-- A chunk forward. -/
lemma chunkOf_forward (hlimit : 0 < limit) (h : offset ≤ lines.length) :
    (chunkOf lines offset limit "forward").1 =
        ((lines.drop offset).take limit.toNat).map rstripNewline ∧
      (chunkOf lines offset limit "forward").2.nextOffset "forward" =
        if offset + limit.toNat < lines.length then some ((offset + limit.toNat : ℕ) : ℤ)
        else none := by
  have hsize : (lines.drop offset).take (min (offset + limit.toNat) lines.length - offset) =
      (lines.drop offset).take limit.toNat := by
    rw [List.take_eq_take_iff, List.length_drop]
    omega
  have hcount : (((lines.drop offset).take limit.toNat).map rstripNewline).length =
      min limit.toNat (lines.length - offset) := by
    rw [List.length_map, List.length_take, List.length_drop]
  simp only [chunkOf, if_true, min_eq_left h, hsize, ChunkInfo.nextOffset, hcount, true_and]
  rw [if_neg (by decide)]
  by_cases hmore : offset + limit.toNat < lines.length
  · have hle : limit.toNat ≤ lines.length - offset := by omega
    simp [hmore, hle]
  · have hend : ¬ offset + min limit.toNat (lines.length - offset) < lines.length := by omega
    simp [hmore, hend]

/-- A chunk backward: its last line is that of the request. -/
lemma chunkOf_backward (hlimit : 0 < limit) (h : offset < lines.length) :
    (chunkOf lines offset limit "backward").1 =
        ((lines.take (offset + 1)).drop (offset + 1 - limit.toNat)).map rstripNewline ∧
      (chunkOf lines offset limit "backward").2.offset = offset + 1 - limit.toNat ∧
      (chunkOf lines offset limit "backward").2.offset +
        (chunkOf lines offset limit "backward").2.count = offset + 1 ∧
      (chunkOf lines offset limit "backward").2.nextOffset "backward" =
        if limit.toNat ≤ offset then some ((offset + 1 - limit.toNat - limit.toNat : ℕ) : ℤ)
        else none := by
  have hback : ¬ "backward" = "forward" := by decide
  have hend : min (offset + 1) lines.length = offset + 1 := min_eq_left h
  have hslice : (lines.drop (offset + 1 - limit.toNat)).take
      (offset + 1 - (offset + 1 - limit.toNat)) =
        (lines.take (offset + 1)).drop (offset + 1 - limit.toNat) := by
    rw [List.take_drop]
    congr 2
    omega
  simp only [chunkOf, if_neg hback, hend, hslice, ChunkInfo.nextOffset, if_true, true_and,
    List.length_map, List.length_drop, List.length_take]
  refine ⟨by omega, ?_⟩
  by_cases hmore : limit.toNat ≤ offset
  · rw [if_pos (by omega), if_pos hmore, Option.some.injEq]
    omega
  · rw [if_neg (by omega), if_neg hmore]

end Chunks

section Walks

variable {log : LogFile} {limit : ℤ}

/-- The lines of chunks with the first one apart. -/
lemma linesOf_cons (c : LogChunk) (cs : List LogChunk) :
    linesOf (c :: cs) = c.lines ++ linesOf cs :=
  List.flatMap_cons

/-- **The forward walk** from a line returns all lines from there on.

**Proof sketch.** Induction on the number of lines left. A chunk is the first of them, and the next
offset is where it ends. -/
lemma exists_forward_walk (hlimit : 0 < limit ∧ limit ≤ 10000) {offset : ℕ}
    (h : offset ≤ log.lines.length) :
    ∃ cs, LogWalk log limit "forward" offset cs ∧
      linesOf cs = (log.lines.drop offset).map rstripNewline := by
  induction hleft : log.lines.length - offset using Nat.strong_induction_on generalizing offset with
  | h left ih =>
    have hrequest := log.request_ok offset hlimit (.inl rfl)
    obtain ⟨hlines, hnext⟩ := chunkOf_forward hlimit.1 h
    by_cases hmore : offset + limit.toNat < log.lines.length
    · rw [if_pos hmore] at hnext
      obtain ⟨cs, hwalk, hrest⟩ := ih (log.lines.length - (offset + limit.toNat))
        (by have := hlimit.1; omega) hmore.le rfl
      refine ⟨_, .more hrequest hnext hwalk, ?_⟩
      rw [linesOf_cons, hrest]
      show (chunkOf log.lines offset limit "forward").1 ++ _ = _
      rw [hlines, ← List.map_append, ← List.drop_drop, List.take_append_drop]
    · rw [if_neg hmore] at hnext
      refine ⟨_, .last hrequest hnext, ?_⟩
      show (chunkOf log.lines offset limit "forward").1 ++ [] = _
      rw [hlines, List.append_nil, List.take_of_length_le]
      rw [List.length_drop]
      omega

/-- The chunk that ends with line `offset`, and what is asked for next. -/
lemma backward_chunk (hlimit : 0 < limit ∧ limit ≤ 10000) {offset : ℕ}
    (h : offset < log.lines.length) :
    ∃ c, log.request offset limit "backward" = .ok c ∧
      c.lines = ((log.lines.take (offset + 1)).drop (offset + 1 - limit.toNat)).map rstripNewline ∧
      c.chunkInfo.offset = offset + 1 - limit.toNat ∧
      c.chunkInfo.offset + c.chunkInfo.count = offset + 1 ∧
      c.chunkInfo.nextOffset "backward" =
        if limit.toNat ≤ offset then some ((offset + 1 - limit.toNat - limit.toNat : ℕ) : ℤ)
        else none :=
  ⟨_, log.request_ok offset hlimit (.inr rfl), chunkOf_backward hlimit.1 h⟩

/-- What is asked for first, after a request that is answered. -/
lemma LogWalk.exists_request {offset : ℤ} {direction : String} {cs : List LogChunk}
    (h : LogWalk log limit direction offset cs) :
    ∃ c rest, cs = c :: rest ∧ log.request offset limit direction = .ok c ∧
      ∀ next, c.chunkInfo.nextOffset direction = some next →
        LogWalk log limit direction next rest := by
  cases h with
  | last hc hnext =>
    refine ⟨_, [], rfl, hc, fun next h => ?_⟩
    rw [hnext] at h
    cases h
  | more hc hnext hcs =>
    refine ⟨_, _, rfl, hc, fun next' h => ?_⟩
    rw [hnext, Option.some.injEq] at h
    exact h ▸ hcs

/-- The lines up to a line are those of one chunk and the lines before it. -/
lemma take_append_chunk (lines : List Text) (start stop : ℕ) (h : start ≤ stop) :
    lines.take start ++ (lines.take stop).drop start = lines.take stop := by
  have htake : lines.take start = (lines.take stop).take start := by
    rw [List.take_take, min_eq_left h]
  rw [htake, List.take_append_drop]

/-- A backward walk of one chunk. -/
lemma backward_walk_one (hlimit : 0 < limit ∧ limit ≤ 10000) {offset : ℕ}
    (h : offset < log.lines.length) (hall : offset < limit.toNat) :
    ∃ c, LogWalk log limit "backward" offset [c] ∧ c.chunkInfo.offset = 0 ∧
      c.chunkInfo.offset + c.chunkInfo.count = offset + 1 ∧
      c.lines = (log.lines.take (offset + 1)).map rstripNewline := by
  obtain ⟨c, hc, hlines, hoffset, hend, hnext⟩ := backward_chunk hlimit h
  have hzero : offset + 1 - limit.toNat = 0 := by omega
  rw [if_neg (by omega)] at hnext
  rw [hzero] at hoffset hlines
  exact ⟨c, .last hc hnext, hoffset, hend, hlines⟩

/-- **Going on backward** works if the next offset is the line before the chunk. -/
lemma backward_walk_more (hlimit : 0 < limit ∧ limit ≤ 10000) {offset : ℕ}
    (h : offset < log.lines.length) (hmore : limit.toNat ≤ offset)
    (hnext : offset + 1 - limit.toNat - limit.toNat + 1 = offset + 1 - limit.toNat)
    {c' : LogChunk} {cs : List LogChunk}
    (hwalk : LogWalk log limit "backward"
      ((offset + 1 - limit.toNat - limit.toNat : ℕ) : ℤ) (c' :: cs))
    (hend' : c'.chunkInfo.offset + c'.chunkInfo.count =
      offset + 1 - limit.toNat - limit.toNat + 1)
    (hlines' : linesOf (c' :: cs).reverse =
      (log.lines.take (offset + 1 - limit.toNat - limit.toNat + 1)).map rstripNewline)
    (hchain : (c' :: cs).IsChain fun c c' => EndsBefore c' c) :
    ∃ c, LogWalk log limit "backward" offset (c :: c' :: cs) ∧
      c.chunkInfo.offset + c.chunkInfo.count = offset + 1 ∧
      linesOf (c :: c' :: cs).reverse = (log.lines.take (offset + 1)).map rstripNewline ∧
      (c :: c' :: cs).IsChain fun c c' => EndsBefore c' c := by
  obtain ⟨c, hc, hlines, hoffset, hend, hask⟩ := backward_chunk hlimit h
  rw [if_pos hmore] at hask
  refine ⟨c, .more hc hask hwalk, hend, ?_, List.isChain_cons_cons.mpr ⟨?_, hchain⟩⟩
  · rw [List.reverse_cons, linesOf, List.flatMap_append, ← linesOf, hlines', hnext]
    show _ ++ (c.lines ++ []) = _
    rw [List.append_nil, hlines, ← List.map_append, take_append_chunk _ _ _ (Nat.sub_le _ _)]
  · rw [EndsBefore, hend', hoffset, hnext]

/-- Chunks of one line are returned one by one. -/
lemma exists_backward_walk_lines {offset : ℕ} (h : offset < log.lines.length) :
    ∃ c cs, LogWalk log 1 "backward" offset (c :: cs) ∧
      c.chunkInfo.offset + c.chunkInfo.count = offset + 1 ∧
      linesOf (c :: cs).reverse = (log.lines.take (offset + 1)).map rstripNewline ∧
      (c :: cs).IsChain fun c c' => EndsBefore c' c := by
  have hlimit : (0 : ℤ) < 1 ∧ (1 : ℤ) ≤ 10000 := by decide
  induction offset with
  | zero =>
    obtain ⟨c, hwalk, -, hend, hlines⟩ := backward_walk_one hlimit h Nat.one_pos
    exact ⟨c, [], hwalk, hend, by simpa [linesOf] using hlines, List.isChain_singleton _⟩
  | succ offset ih =>
    obtain ⟨c', cs, hwalk, hend, hlines, hchain⟩ := ih (Nat.lt_of_succ_lt h)
    obtain ⟨c, hmore⟩ := backward_walk_more hlimit h (Nat.succ_pos offset) rfl hwalk hend hlines
      hchain
    exact ⟨c, c' :: cs, hmore⟩

/-- The lines of a log that has at most one line more than a chunk are returned. -/
lemma exists_backward_walk_short (hlimit : 0 < limit ∧ limit ≤ 10000)
    (hpos : 0 < log.lines.length) (hshort : log.lines.length ≤ limit.toNat + 1) :
    ∃ cs, LogWalk log limit "backward" ((log.lines.length - 1 : ℕ) : ℤ) cs ∧
      linesOf cs.reverse = log.lines.map rstripNewline ∧
      cs.IsChain fun c c' => EndsBefore c' c := by
  have hlast : log.lines.length - 1 < log.lines.length := Nat.sub_lt hpos Nat.one_pos
  have hall : log.lines.take (log.lines.length - 1 + 1) = log.lines := by
    rw [Nat.sub_add_cancel hpos, List.take_length]
  by_cases hone : log.lines.length ≤ limit.toNat
  · obtain ⟨c, hwalk, -, -, hlines⟩ := backward_walk_one hlimit hlast (by omega)
    refine ⟨[c], hwalk, ?_, List.isChain_singleton _⟩
    rw [← hall]
    simpa [linesOf] using hlines
  · have hlimit' := hlimit.1
    -- all but the first line are one chunk, and the first one is asked for next
    have hnext : log.lines.length - 1 + 1 - limit.toNat - limit.toNat = 0 := by omega
    obtain ⟨c', hwalk, -, hend, hlines⟩ := backward_walk_one hlimit hpos (by omega)
    have hlines' : linesOf [c'].reverse = (log.lines.take (0 + 1)).map rstripNewline := by
      simpa [linesOf] using hlines
    rw [← hnext] at hwalk hend hlines'
    obtain ⟨c, hwalk', -, hall', hchain⟩ := backward_walk_more hlimit hlast (by omega)
      (by omega) hwalk hend hlines' (List.isChain_singleton _)
    rw [hall] at hall'
    exact ⟨_, hwalk', hall', hchain⟩

/-- **A second chunk that does not end where the first begins.** -/
lemma not_chain_of_long (hlimit : 0 < limit ∧ limit ≤ 10000) (hne : limit ≠ 1)
    (hlong : limit.toNat + 1 < log.lines.length) {cs : List LogChunk}
    (hwalk : LogWalk log limit "backward" (log.lines.length - 1) cs) :
    ¬ cs.IsChain fun c c' => EndsBefore c' c := by
  intro hchain
  have hlast : log.lines.length - 1 < log.lines.length := by omega
  have hfirst : ((log.lines.length : ℤ) - 1) = ((log.lines.length - 1 : ℕ) : ℤ) := by omega
  rw [hfirst] at hwalk
  obtain ⟨c, rest, rfl, hc, hnext⟩ := hwalk.exists_request
  obtain ⟨c₁, hc₁, -, hoffset, -, hask⟩ := backward_chunk hlimit hlast
  obtain rfl : c = c₁ := Except.ok.inj (hc.symm.trans hc₁)
  rw [if_pos (by omega)] at hask
  obtain ⟨c', rest', rfl, hc', -⟩ := (hnext _ hask).exists_request
  have hsecond : log.lines.length - 1 + 1 - limit.toNat - limit.toNat < log.lines.length := by
    omega
  obtain ⟨c₂, hc₂, -, -, hend, -⟩ := backward_chunk hlimit hsecond
  obtain rfl : c' = c₂ := Except.ok.inj (hc'.symm.trans hc₂)
  have hadjacent : EndsBefore c' c := (List.isChain_cons_cons.mp hchain).1
  rw [EndsBefore, hend, hoffset] at hadjacent
  omega

/-- **When both walks return every line once**: for an empty log never, and otherwise when the
chunks have one line or the log has at most one line more than a chunk.

**Proof sketch.** The forward walk always does (`exists_forward_walk`). A backward walk goes on from
the line where a whole chunk before its chunk would begin; that is the line before its chunk only if
chunks have one line, or if it is the first line (`exists_backward_walk_lines`,
`exists_backward_walk_short`, `not_chain_of_long`). -/
theorem pagingCovers_iff (log : LogFile) (hlimit : 1 ≤ limit ∧ limit ≤ 10000) :
    PagingCovers log limit ↔
      log.lines ≠ [] ∧ (limit = 1 ∨ (log.lines.length : ℤ) ≤ limit + 1) := by
  have hlimit' : 0 < limit ∧ limit ≤ 10000 := ⟨by omega, hlimit.2⟩
  constructor
  · intro h
    obtain ⟨cs, hwalk, -, hchain⟩ := h.backward
    constructor
    · intro hnil
      obtain ⟨c, rest, -, hc, -⟩ := hwalk.exists_request
      rw [hnil, LogFile.request_negative hlimit' (by decide)] at hc
      cases hc
    · by_contra hno
      obtain ⟨hne, hlong⟩ := not_or.mp hno
      exact not_chain_of_long hlimit' hne (by omega) hwalk hchain
  · rintro ⟨hne, hcase⟩
    have hpos : 0 < log.lines.length := List.length_pos_iff.mpr hne
    have hlast : ((log.lines.length : ℤ) - 1) = ((log.lines.length - 1 : ℕ) : ℤ) := by omega
    constructor
    · exact exists_forward_walk hlimit' (Nat.zero_le _)
    · rw [hlast]
      rcases hcase with rfl | hshort
      · obtain ⟨c, cs, hwalk, -, hlines, hchain⟩ :=
          exists_backward_walk_lines (Nat.sub_lt hpos Nat.one_pos)
        refine ⟨c :: cs, hwalk, ?_, hchain⟩
        rw [hlines, Nat.sub_add_cancel hpos, List.take_length]
      · exact exists_backward_walk_short hlimit' hpos (by omega)

end Walks

/-- A log with these contents. -/
def logOf (content : Text) : LogFile where
  fs :=
    { present := fun _ => true, regular := fun _ => true, readText := fun _ => .ok content
      readBytes := fun _ => [], fileStat := fun _ => .ok ⟨0, ""⟩ }
  cwd := workDirectory
  currentLogPath := "logs/app.log".toList
  filename := "app.log".toList
  content := content
  stat := ⟨0, ""⟩
  passes := by decide +kernel
  present := rfl
  regular := rfl
  readText := rfl
  fileStat := rfl

/-- A log of three lines is covered by chunks of two. -/
theorem pagingCovers_threeLines : PagingCovers (logOf "1\n2\n3\n".toList) 2 :=
  (pagingCovers_iff _ (by decide)).mpr ⟨by decide, .inr (by decide)⟩

/-- With four lines, backward chunks of two leave one out. -/
theorem fourLines_not_covered :
    ¬ ∀ (log : LogFile) (limit : ℤ), 1 ≤ limit ∧ limit ≤ 10000 → PagingCovers log limit := by
  intro h
  obtain ⟨cs, hwalk, -, hchain⟩ := (h (logOf "1\n2\n3\n4\n".toList) 2 (by decide)).backward
  exact not_chain_of_long (by decide) (by decide) (by decide) hwalk hchain

end FileAgent
