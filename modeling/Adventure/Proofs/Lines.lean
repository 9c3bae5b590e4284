import Adventure.Console
import Adventure.Proofs.Quitting

/-!
# The lines of a text

The input is a run of bytes. It is cut behind each newline, and every piece is decoded on its own.
For a text in UTF-8 the pieces are the lines of the text (`byteLines_toUTF8`): no character but the
newline has its byte in its code. A text that is empty or ends in a newline leaves the lines of what
is put behind it as they are (`linesOf_append`); ending the lines with a carriage return and a
newline gives as many lines, each with the same tokens (`linesOf_withReturns`,
`tokens_withReturns`).
-/

namespace Adventure

namespace Console

/-! ## Pieces -/

section Pieces

variable {α : Type}

/-- Pieces with more put before the first. -/
def beforeFirst (front : List α) : List (List α) → List (List α)
  | [] => [front]
  | piece :: rest => (front ++ piece) :: rest

theorem beforeFirst_append (front mid : List α) (pieces : List (List α)) :
    beforeFirst (front ++ mid) pieces = beforeFirst front (beforeFirst mid pieces) := by
  cases pieces with
  | nil => rfl
  | cons piece rest => rw [beforeFirst, beforeFirst, beforeFirst, List.append_assoc]

variable [BEq α] [LawfulBEq α] {last : α}

theorem pieces_cons_self (l : List α) :
    piecesEndingWith last (last :: l) = [last] :: piecesEndingWith last l := by
  rw [piecesEndingWith, if_pos BEq.rfl]

theorem pieces_cons_of_ne {a : α} (ha : a ≠ last) (l : List α) :
    piecesEndingWith last (a :: l) = beforeFirst [a] (piecesEndingWith last l) := by
  rw [piecesEndingWith, if_neg (by simpa using ha)]
  cases piecesEndingWith last l <;> rfl

theorem pieces_eq_nil_iff {l : List α} : piecesEndingWith last l = [] ↔ l = [] := by
  cases l with
  | nil => simp [piecesEndingWith]
  | cons a l =>
    by_cases ha : a = last
    · simp [ha, pieces_cons_self]
    · rw [pieces_cons_of_ne ha]
      cases piecesEndingWith last l <;> simp [beforeFirst]

/-- A stretch without the last element goes into the first piece. -/
theorem pieces_append_of_notMem {front : List α} (hne : front ≠ []) (h : last ∉ front)
    (l : List α) :
    piecesEndingWith last (front ++ l) = beforeFirst front (piecesEndingWith last l) := by
  induction front with
  | nil => exact absurd rfl hne
  | cons a front ih =>
    obtain ⟨ha, hfront⟩ := List.ne_and_not_mem_of_not_mem_cons h
    rw [List.cons_append, pieces_cons_of_ne (Ne.symm ha)]
    by_cases hnil : front = []
    · rw [hnil, List.nil_append]
    · rw [ih hnil hfront, ← beforeFirst_append, List.singleton_append]

/-- A stretch without the last element is a piece together with one. -/
theorem pieces_append_cons {front : List α} (h : last ∉ front) (l : List α) :
    piecesEndingWith last (front ++ last :: l) =
      (front ++ [last]) :: piecesEndingWith last l := by
  by_cases hne : front = []
  · rw [hne, List.nil_append, pieces_cons_self, List.nil_append]
  · rw [pieces_append_of_notMem hne h, pieces_cons_self, beforeFirst]

/-- **The pieces of what ends in the last element stay apart from what follows.** -/
theorem pieces_append {l : List α} (h : ∀ a ∈ l.getLast?, a = last) (r : List α) :
    piecesEndingWith last (l ++ r) = piecesEndingWith last l ++ piecesEndingWith last r := by
  induction l with
  | nil => rfl
  | cons a l ih =>
    have hends := h _ (List.getLast?_cons ▸ Option.mem_some_self _)
    have hrest : ∀ b ∈ l.getLast?, b = last := by
      intro b hb
      rwa [Option.mem_def.mp hb, Option.getD_some] at hends
    rw [List.cons_append]
    by_cases ha : a = last
    · rw [ha, pieces_cons_self, pieces_cons_self, ih hrest, List.cons_append]
    · -- the list goes on, so its pieces have a first one for `a` to be put before
      have hne : piecesEndingWith last l ≠ [] := by
        intro hnil
        rw [pieces_eq_nil_iff.mp hnil] at hends
        exact ha hends
      obtain ⟨piece, rest, hpieces⟩ := List.exists_cons_of_ne_nil hne
      rw [pieces_cons_of_ne ha, pieces_cons_of_ne ha, ih hrest, hpieces]
      rfl

/-- **Pieces are spelled piece by piece**, when the spelling of an element ends the piece just when
the element does. -/
theorem pieces_flatMap {β : Type} [BEq β] [LawfulBEq β] {last' : β} (spell : α → List β)
    {front : List β} (hlast : spell last = front ++ [last']) (hfront : last' ∉ front)
    (hother : ∀ a, a ≠ last → spell a ≠ [] ∧ last' ∉ spell a) (l : List α) :
    piecesEndingWith last' (l.flatMap spell) =
      (piecesEndingWith last l).map (List.flatMap spell) := by
  induction l with
  | nil => rfl
  | cons a l ih =>
    rw [List.flatMap_cons]
    by_cases ha : a = last
    · rw [ha, hlast, List.append_assoc, List.singleton_append, pieces_append_cons hfront, ih,
        pieces_cons_self, List.map_cons, List.flatMap_singleton, hlast]
    · obtain ⟨hne, hnot⟩ := hother a ha
      rw [pieces_append_of_notMem hne hnot, ih, pieces_cons_of_ne ha]
      cases piecesEndingWith last l with
      | nil => simp [beforeFirst]
      | cons piece rest => simp [beforeFirst]

end Pieces

/-! ## The lines of a text -/

/-- The lines of a text, each with the newline that ends it. -/
def linesOf (text : String) : List String :=
  (piecesEndingWith '\n' text.toList).map String.ofList

theorem textLines_eq (text : String) : textLines text = (linesOf text).map some := by
  rw [textLines, linesOf, List.map_map]
  rfl

/-- The text is empty or ends in a newline. -/
def EndsLine (text : String) : Prop :=
  text = "" ∨ text.toList.getLast? = some '\n'

instance (text : String) : Decidable (EndsLine text) :=
  inferInstanceAs (Decidable (_ ∨ _))

theorem linesOf_append {text : String} (h : EndsLine text) (rest : String) :
    linesOf (text ++ rest) = linesOf text ++ linesOf rest := by
  have hlast : ∀ c ∈ text.toList.getLast?, c = '\n' := by
    intro c hc
    rcases h with rfl | hnewline
    · exact nomatch hc
    · exact Option.some.inj (hc.symm.trans hnewline)
  rw [linesOf, String.toList_append, pieces_append hlast, List.map_append]
  rfl

/-! ### Bytes -/

/-- The bytes read last to first, followed by those yet to be read. -/
theorem toList_loop_eq {bytes : ByteArray} {unread : List UInt8} {i : Nat}
    (h : bytes.data.toList.drop i = unread) (read : List UInt8) :
    ByteArray.toList.loop bytes i read = read.reverse ++ unread := by
  induction unread generalizing i read with
  | nil =>
    have hend : ¬ i < bytes.size := by
      have hlen : bytes.data.toList.length ≤ i := List.drop_eq_nil_iff.mp h
      rw [Array.length_toList] at hlen
      exact Nat.not_lt.mpr hlen
    rw [ByteArray.toList.loop, if_neg hend, List.append_nil]
  | cons byte unread ih =>
    have hbyte : bytes.data.toList[i]? = some byte := by
      rw [← List.head?_drop, h, List.head?_cons]
    have hrest : bytes.data.toList.drop (i + 1) = unread := by
      rw [← List.tail_drop, h, List.tail_cons]
    rw [Array.getElem?_toList, Array.getElem?_eq_some_iff] at hbyte
    obtain ⟨hi, hget⟩ := hbyte
    have hget' : bytes.get! i = byte := (getElem!_pos bytes.data i hi).trans hget
    rw [ByteArray.toList.loop, if_pos (show i < bytes.size from hi), hget', ih hrest,
      List.reverse_cons, List.append_assoc, List.singleton_append]

/-- The bytes of a text are those of its characters. -/
theorem toList_toUTF8 (text : String) :
    text.toUTF8.toList = text.toList.flatMap String.utf8EncodeChar := by
  rw [ByteArray.toList, toList_loop_eq List.drop_zero, List.reverse_nil, List.nil_append,
    String.toUTF8, ← String.utf8Encode_toList, List.utf8Encode, List.toList_data_toByteArray]

/-- Only a newline has the byte of a newline in its code: what is coded in one byte is that byte,
and the bytes of a longer code are at least 128. -/
theorem notMem_utf8EncodeChar {c : Char} (hc : c ≠ '\n') : 10 ∉ String.utf8EncodeChar c := by
  have hcode : c.val.toNat ≠ 10 := fun h => hc (Char.ext (UInt32.toNat_inj.mp h))
  have hbyte : ∀ n, n % 256 ≠ 10 → (10 : UInt8) ≠ UInt8.ofNat n := by
    rintro n hn h
    exact hn (by simpa using (congrArg UInt8.toNat h).symm)
  unfold String.utf8EncodeChar
  generalize c.val.toNat = v at hcode
  simp only
  split
  · simp only [List.mem_singleton]
    exact hbyte _ (by omega)
  · split
    · simp only [List.mem_cons, List.not_mem_nil, or_false, not_or]
      exact ⟨hbyte _ (by omega), hbyte _ (by omega)⟩
    · split
      · simp only [List.mem_cons, List.not_mem_nil, or_false, not_or]
        exact ⟨hbyte _ (by omega), hbyte _ (by omega), hbyte _ (by omega)⟩
      · simp only [List.mem_cons, List.not_mem_nil, or_false, not_or]
        exact ⟨hbyte _ (by omega), hbyte _ (by omega), hbyte _ (by omega), hbyte _ (by omega)⟩

theorem fromUTF8?_encoded (cs : List Char) :
    String.fromUTF8? ⟨(cs.flatMap String.utf8EncodeChar).toArray⟩ = some (String.ofList cs) := by
  have hbytes : (⟨(cs.flatMap String.utf8EncodeChar).toArray⟩ : ByteArray) =
      (String.ofList cs).toByteArray := by
    rw [String.toByteArray_ofList, List.utf8Encode]
    exact ByteArray.ext (Array.toList_inj.mp List.toList_data_toByteArray.symm)
  rw [hbytes, String.fromUTF8?, dif_pos (String.ofList cs).isValidUTF8, String.fromUTF8]

/-- **The input of a text in UTF-8 has the lines of the text.** -/
theorem byteLines_toUTF8 (text : String) : byteLines text.toUTF8 = textLines text := by
  have hnewline : String.utf8EncodeChar '\n' = [] ++ [10] := rfl
  have hpieces : piecesEndingWith 10 (text.toList.flatMap String.utf8EncodeChar) =
      (piecesEndingWith '\n' text.toList).map (List.flatMap String.utf8EncodeChar) :=
    pieces_flatMap String.utf8EncodeChar hnewline List.not_mem_nil
      (fun c hc => ⟨String.utf8EncodeChar_ne_nil, notMem_utf8EncodeChar hc⟩) text.toList
  rw [byteLines, toList_toUTF8, hpieces, List.map_map, textLines]
  exact List.map_congr_left fun cs _ => fromUTF8?_encoded cs

/-! ### Carriage returns -/

/-- A newline as a carriage return and a newline. -/
def withReturn (c : Char) : List Char :=
  if c = '\n' then ['\r', '\n'] else [c]

/-- The text with a carriage return before every newline. -/
def withReturns (text : String) : String :=
  String.ofList (text.toList.flatMap withReturn)

theorem linesOf_withReturns (text : String) :
    linesOf (withReturns text) = (linesOf text).map withReturns := by
  have hnewline : withReturn '\n' = ['\r'] ++ ['\n'] := rfl
  have hpieces : piecesEndingWith '\n' (text.toList.flatMap withReturn) =
      (piecesEndingWith '\n' text.toList).map (List.flatMap withReturn) :=
    pieces_flatMap withReturn hnewline (by decide)
      (fun c hc => by simp [withReturn, hc, Ne.symm hc]) text.toList
  rw [linesOf, withReturns, String.toList_ofList, hpieces, linesOf, List.map_map, List.map_map]
  refine List.map_congr_left fun cs _ => ?_
  rw [Function.comp, Function.comp, withReturns, String.toList_ofList]

theorem leadRun_flatMap_withReturn (cs : List Char) :
    Text.leadRun Text.isBlank (cs.flatMap withReturn) = Text.leadRun Text.isBlank cs := by
  have hreturn : Text.isBlank '\r' = true := by decide
  have hnewline : Text.isBlank '\n' = true := by decide
  induction cs with
  | nil => rfl
  | cons c cs ih =>
    rw [List.flatMap_cons]
    by_cases hc : c = '\n'
    · simp only [hc, withReturn, if_true, List.cons_append, List.nil_append, Text.leadRun, ih,
        hreturn, hnewline, Text.consRun_nil]
    · simp only [hc, withReturn, if_false, List.cons_append, List.nil_append, Text.leadRun, ih]

/-- Carriage returns are blanks, so they leave the tokens as they are. -/
theorem tokens_withReturns (line : String) : tokens (withReturns line) = tokens line := by
  rw [tokens, tokens, Text.splitWords, Text.splitWords, withReturns, String.toList_ofList,
    Text.runs, Text.runs, leadRun_flatMap_withReturn]

end Console

end Adventure
