import Mathlib.Data.List.Basic

/-!
# The words of a text

A text is split at its blanks into words: no word is empty, and none has a blank in it.

* `words_append_blank`: what stands before a blank is a word of its own.
* `mem_words`: what the words are made of.
-/

namespace Words

variable {α : Type*} {isBlank : α → Bool} {word rest current : List α} {blank : α}

/-- The words of a text, the first of which has begun with `current`. -/
def wordsFrom (isBlank : α → Bool) (current : List α) : List α → List (List α)
  | [] => if current = [] then [] else [current]
  | c :: rest =>
      if isBlank c then
        if current = [] then wordsFrom isBlank [] rest else current :: wordsFrom isBlank [] rest
      else wordsFrom isBlank (current ++ [c]) rest

def words (isBlank : α → Bool) (text : List α) : List (List α) := wordsFrom isBlank [] text

theorem wordsFrom_append (hword : ∀ c ∈ word, isBlank c = false) :
    wordsFrom isBlank current (word ++ rest) = wordsFrom isBlank (current ++ word) rest := by
  induction word generalizing current with
  | nil => rw [List.nil_append, List.append_nil]
  | cons c word ih =>
    have htail : ∀ d ∈ word, isBlank d = false := fun d hd => hword d (List.mem_cons_of_mem _ hd)
    rw [List.cons_append, wordsFrom, if_neg (by simp [hword c List.mem_cons_self]), ih htail,
      List.append_assoc, List.singleton_append]

theorem words_of_no_blank (hne : word ≠ []) (hword : ∀ c ∈ word, isBlank c = false) :
    words isBlank word = [word] := by
  have hwords := @wordsFrom_append _ isBlank word [] [] hword
  rw [List.append_nil, List.nil_append] at hwords
  rw [words, hwords, wordsFrom, if_neg hne]

/-- **What stands before a blank** is a word of its own. -/
theorem words_append_blank (hne : word ≠ []) (hword : ∀ c ∈ word, isBlank c = false)
    (hblank : isBlank blank = true) :
    words isBlank (word ++ blank :: rest) = word :: words isBlank rest := by
  rw [words, wordsFrom_append hword, List.nil_append, wordsFrom, if_pos hblank, if_neg hne, words]

/-- **The words** are not empty and have no blanks in them. -/
theorem mem_words {text : List α} (h : word ∈ words isBlank text) :
    word ≠ [] ∧ ∀ c ∈ word, isBlank c = false := by
  have hfrom : ∀ (text current : List α), (∀ c ∈ current, isBlank c = false) →
      word ∈ wordsFrom isBlank current text → word ≠ [] ∧ ∀ c ∈ word, isBlank c = false := by
    intro text
    induction text with
    | nil =>
      intro current hcurrent hmem
      rw [wordsFrom] at hmem
      split at hmem
      · cases hmem
      · next hne =>
        obtain rfl := List.mem_singleton.mp hmem
        exact ⟨hne, hcurrent⟩
    | cons c rest ih =>
      intro current hcurrent hmem
      rw [wordsFrom] at hmem
      by_cases hblank : isBlank c = true
      · rw [if_pos hblank] at hmem
        split at hmem
        · exact ih [] (by simp) hmem
        · next hne =>
          rcases List.mem_cons.mp hmem with rfl | hmem
          · exact ⟨hne, hcurrent⟩
          · exact ih [] (by simp) hmem
      · rw [if_neg hblank] at hmem
        refine ih _ (fun d hd => ?_) hmem
        rcases List.mem_append.mp hd with hd | hd
        · exact hcurrent d hd
        · rw [List.mem_singleton.mp hd]
          simpa using hblank
  exact hfrom text [] (by simp) h

end Words
