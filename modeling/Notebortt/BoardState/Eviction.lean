import Notebortt.BoardState.Persistence

/-! # Which keys an eviction deletes

    `flushBoard` finds its keys by a SCAN for `board:<id>:*`, with the board id
    put into the pattern unescaped. A key space is the list of the keys stored,
    each with the board it was written for: two boards whose ids differ can have
    keys of one text, and which of them a key belongs to is not in its text. -/

namespace Notebortt

/-- A stored key, by the board and the purpose it was written for. -/
structure StoredKey where
  board : String
  name : KeyName
  deriving DecidableEq

def StoredKey.key (k : StoredKey) : String := k.name.key k.board

/-- The keys of the store: those of boards, and all others. -/
structure KeySpace where
  written : List StoredKey
  others : List String

/-- SCAN and DEL of `flushBoard`. -/
def KeySpace.flush (boardId : String) (ks : KeySpace) : KeySpace where
  written := ks.written.filter fun k => !scanFinds boardId k.key
  others := ks.others.filter fun key => !scanFinds boardId key

/-- The eviction of a board deletes only keys written for it: the keys of the
    other boards survive, and so do all keys outside `board:<id>:`. -/
def DeletesOnlyOwn (boardId : String) (ks : KeySpace) : Prop :=
  (∀ k ∈ ks.written, k.board ≠ boardId → k ∈ (ks.flush boardId).written) ∧
  (∀ key ∈ ks.others, ¬ boardPrefix boardId <+: keyBytes key → key ∈ (ks.flush boardId).others)

/-- No key of another board begins with `board:<id>:`. -/
def PrefixIsOwn (boardId : String) (ks : KeySpace) : Prop :=
  ∀ k ∈ ks.written, k.board ≠ boardId → ¬ boardPrefix boardId <+: keyBytes k.key

theorem mem_flush_written {boardId : String} {ks : KeySpace} {k : StoredKey} :
    k ∈ (ks.flush boardId).written ↔ k ∈ ks.written ∧ scanFinds boardId k.key = false := by
  simp [KeySpace.flush]

theorem mem_flush_others {boardId : String} {ks : KeySpace} {key : String} :
    key ∈ (ks.flush boardId).others ↔ key ∈ ks.others ∧ scanFinds boardId key = false := by
  simp [KeySpace.flush]

/-- The SCAN for a literal id misses every key outside `board:<id>:`. -/
theorem scanFinds_eq_false {boardId key : String} (hlit : IsLiteralId boardId)
    (h : ¬ boardPrefix boardId <+: keyBytes key) : scanFinds boardId key = false := by
  rw [Bool.eq_false_iff]
  exact fun hfind => h ((scanFinds_iff hlit key).mp hfind)

/-- With no special byte in the id, an eviction deletes only keys written for the
    board exactly when no other board has a key under the board's prefix. -/
theorem flushBoard_deletesOnlyOwn_iff (boardId : String) (ks : KeySpace)
    (hlit : IsLiteralId boardId) : DeletesOnlyOwn boardId ks ↔ PrefixIsOwn boardId ks := by
  constructor
  · rintro ⟨hwritten, _⟩ k hk hother hprefix
    have hkept := (mem_flush_written.mp (hwritten k hk hother)).2
    rw [(scanFinds_iff hlit k.key).mpr hprefix] at hkept
    cases hkept
  · intro hown
    constructor
    · intro k hk hother
      exact mem_flush_written.mpr ⟨hk, scanFinds_eq_false hlit (hown k hk hother)⟩
    · intro key hkey hout
      exact mem_flush_others.mpr ⟨hkey, scanFinds_eq_false hlit hout⟩

/-- Two UUID boards side by side: evicting the first keeps the second's keys. -/
theorem flushBoard_deletesOnlyOwn_uuid :
    let boardA := "aaaaaaaa-aaaa-4aaa-8aaa-aaaaaaaaaaaa"
    let boardB := "bbbbbbbb-bbbb-4bbb-8bbb-bbbbbbbbbbbb"
    DeletesOnlyOwn boardA
      { written := [⟨boardA, .seq⟩, ⟨boardB, .seq⟩, ⟨boardB, .seen "m"⟩]
        others := ["boards:dirty"] } := by
  intro boardA boardB
  refine (flushBoard_deletesOnlyOwn_iff _ _ (by decide)).mpr ?_
  unfold PrefixIsOwn
  decide

/-- The board id `*`, which a mutation can carry and a solo write-through hands
    to `persistBoard`, evicts every board. -/
theorem flushBoard_star_deletes_others :
    ¬ DeletesOnlyOwn "*"
      { written := [⟨"aaaaaaaa-aaaa-4aaa-8aaa-aaaaaaaaaaaa", .elements⟩], others := [] } := by
  unfold DeletesOnlyOwn
  decide

/-- A wildcard in an id stands for anything: the eviction of `u*v` takes the keys
    of every board `uwv`. -/
theorem scanFinds_wildcard {u v : String} (hu : IsLiteralId u) (hv : IsLiteralId v) (w : String)
    (name : KeyName) : scanFinds (u ++ "*" ++ v) (name.key (u ++ w ++ v)) = true := by
  obtain ⟨tail, htail⟩ := boardPrefix_isPrefix (u ++ w ++ v) name
  have hhead : Glob.Literal (keyBytes "board:") := by decide
  have hcolon : Glob.Literal (keyBytes ":") := by decide
  have hmatch := Glob.globMatch_wildcard (hhead.append hu) (Glob.Literal.append hv hcolon)
    (keyBytes w) tail
  have hpattern : keyBytes (flushPattern (u ++ "*" ++ v)) =
      (keyBytes "board:" ++ keyBytes u) ++ [Glob.star] ++ (keyBytes v ++ keyBytes ":") ++
        [Glob.star] := by
    have hstar : keyBytes "*" = [Glob.star] := by decide
    have hcolonStar : keyBytes ":*" = keyBytes ":" ++ [Glob.star] := by decide
    simp only [flushPattern, keyBytes_append, hstar, hcolonStar, List.append_assoc]
  have hkey : keyBytes (name.key (u ++ w ++ v)) =
      (keyBytes "board:" ++ keyBytes u) ++ keyBytes w ++ (keyBytes v ++ keyBytes ":") ++ tail := by
    rw [← htail]
    simp only [boardPrefix, keyBytes_append, List.append_assoc]
  unfold scanFinds
  rw [hpattern, hkey]
  exact hmatch

/-- A UUID has no byte that is special in a pattern. -/
theorem isLiteralId_of_isUuidLike {boardId : String} (h : isUuidLike boardId = true) :
    IsLiteralId boardId := by
  simp only [isUuidLike, Bool.and_eq_true, List.all_eq_true] at h
  intro c hc
  obtain ⟨i, hi⟩ := List.getElem?_of_mem hc
  have hbyte := h.2 (c, i) (List.mem_zipIdx_iff_getElem?.mpr hi)
  rw [Bool.eq_false_iff]
  intro hmeta
  simp only [Glob.isMeta, Bool.or_eq_true, beq_iff_eq, or_assoc] at hmeta
  rcases hmeta with rfl | rfl | rfl | rfl <;>
    simp [isHexByte, Glob.star, Glob.question, Glob.openBracket, Glob.backslash] at hbyte

/-! ### The records of the boards -/

theorem BoardKeys.del_of_not_found {k : BoardKeys} {found : KeyName → Bool}
    (h : ∀ name, found name = false) : k.del found = k := by
  have hnone : k.seen.keys.filter (fun id => found (.seen id)) = [] := by
    simp [h]
  have hseen : k.seen.remove (k.seen.keys.filter fun id => found (.seen id)) = k.seen := by
    rw [hnone]
    rfl
  unfold del
  rw [hseen]
  simp only [h, Bool.false_eq_true, if_false]

/-- Evicting a plain literal id leaves the record of every other plain id. -/
theorem flushBoard_other {boardId other : String} (hlit : IsLiteralId boardId)
    (hplain : IsPlainId boardId) (hother : IsPlainId other) (hne : other ≠ boardId)
    (redis : Redis) : flushBoard boardId redis other = redis other := by
  have hmiss : ∀ name : KeyName, scanFinds boardId (name.key other) = false := by
    intro name
    rw [Bool.eq_false_iff]
    exact fun hfind => hne (scanFinds_plain hlit hplain hother name hfind)
  simp [flushBoard, hne, BoardKeys.del_of_not_found hmiss]

end Notebortt
