import Mathlib

/-!
# Framing of a stream by a separator

A stream of symbols is cut into frames behind every occurrence of a separator; what follows the last
separator is the open rest.  `Framed sep s frames rest` says that `frames` and `rest` are such a
decomposition of `s`.  It is unique, which is what makes the frames of a stream independent of how
the stream arrived, and it can be computed piece by piece (`Framed.append`).
-/

namespace MuduoServer

variable {α : Type*} {sep : α} {f s r : List α} {fs : List (List α)}

/-- A separator ends the frame, and there is none before it. -/
def IsFrame (sep : α) (f : List α) : Prop := ∃ body, f = body ++ [sep] ∧ sep ∉ body

/-- The frames of `s` in order, and the symbols behind the last separator. -/
structure Framed (sep : α) (s : List α) (frames : List (List α)) (rest : List α) : Prop where
  frame : ∀ f ∈ frames, IsFrame sep f
  rest_open : sep ∉ rest
  flatten_append : frames.flatten ++ rest = s

/-- Where the part in front of a separator has no separator, it is no longer than any part in front
of one. -/
lemma isPrefix_of_append_cons_eq {x x' : List α} {r' : List α} (hx : sep ∉ x)
    (heq : x ++ sep :: r = x' ++ sep :: r') : x <+: x' := by
  rcases List.append_eq_append_iff.mp heq with ⟨c, hc, -⟩ | ⟨c, rfl, hc⟩
  · exact ⟨c, hc.symm⟩
  · cases c with
    | nil => simp
    | cons y c =>
      rw [List.cons_append, List.cons.injEq] at hc
      obtain ⟨rfl, -⟩ := hc
      simp at hx

/-- A stream determines its first frame. -/
lemma IsFrame.append_inj {f' r' : List α} (h : IsFrame sep f) (h' : IsFrame sep f')
    (heq : f ++ r = f' ++ r') : f = f' ∧ r = r' := by
  obtain ⟨body, rfl, hbody⟩ := h
  obtain ⟨body', rfl, hbody'⟩ := h'
  simp only [List.append_assoc, List.singleton_append] at heq
  have hle : body <+: body' := isPrefix_of_append_cons_eq hbody heq
  have hge : body' <+: body := isPrefix_of_append_cons_eq hbody' heq.symm
  obtain rfl : body = body' := hle.eq_of_length_le hge.length_le
  simpa using heq

/-- A frame contains its separator. -/
lemma IsFrame.sep_mem (h : IsFrame sep f) : sep ∈ f := by
  obtain ⟨body, rfl, -⟩ := h
  simp

/-- A frame is its last symbol and what stands before it. -/
lemma isFrame_iff : IsFrame sep f ↔ f.getLast? = some sep ∧ sep ∉ f.dropLast := by
  constructor
  · rintro ⟨body, rfl, hbody⟩
    simpa using hbody
  · rintro ⟨hlast, hbody⟩
    refine ⟨f.dropLast, ?_, hbody⟩
    exact (List.dropLast_append_getLast? sep hlast).symm

instance [DecidableEq α] (sep : α) (f : List α) : Decidable (IsFrame sep f) :=
  decidable_of_iff _ isFrame_iff.symm

namespace Framed

/-- Without a separator everything is open. -/
lemma nil (h : sep ∉ r) : Framed sep r [] r := ⟨by simp, h, rfl⟩

/-- A frame in front. -/
lemma cons (hf : IsFrame sep f) (h : Framed sep s fs r) : Framed sep (f ++ s) (f :: fs) r where
  frame g hg := by
    rcases List.mem_cons.mp hg with rfl | hg
    · exact hf
    · exact h.frame g hg
  rest_open := h.rest_open
  flatten_append := by rw [List.flatten_cons, List.append_assoc, h.flatten_append]

/-- The stream goes on: only the open rest has to be looked at again. -/
lemma append {c r' : List α} {fs' : List (List α)} (h : Framed sep s fs r)
    (h' : Framed sep (r ++ c) fs' r') : Framed sep (s ++ c) (fs ++ fs') r' where
  frame g hg := by
    rcases List.mem_append.mp hg with hg | hg
    · exact h.frame g hg
    · exact h'.frame g hg
  rest_open := h'.rest_open
  flatten_append := by
    rw [List.flatten_append, List.append_assoc, h'.flatten_append, ← List.append_assoc,
      h.flatten_append]

/-- An open rest is not a stream that starts with a frame. -/
lemma ne_of_open {t : List α} (hf : IsFrame sep f) (hr : sep ∉ r) : r ≠ f ++ t := by
  rintro rfl
  exact hr (List.mem_append_left t hf.sep_mem)

/-- A stream has one framing. -/
theorem unique {fs' : List (List α)} {r' : List α} (h : Framed sep s fs r)
    (h' : Framed sep s fs' r') : fs = fs' ∧ r = r' := by
  induction fs generalizing s fs' with
  | nil =>
    obtain ⟨-, hr, rfl⟩ := h
    cases fs' with
    | nil => exact ⟨rfl, h'.flatten_append.symm⟩
    | cons g gs =>
      have heq := h'.flatten_append
      rw [List.flatten_cons, List.append_assoc] at heq
      exact absurd heq.symm (ne_of_open (h'.frame g (by simp)) (by simpa using hr))
  | cons f fs ih =>
    obtain ⟨hfs, hr, rfl⟩ := h
    have hf : IsFrame sep f := hfs f (by simp)
    cases fs' with
    | nil =>
      have heq := h'.flatten_append
      rw [List.flatten_cons, List.append_assoc] at heq
      exact absurd heq (ne_of_open hf h'.rest_open)
    | cons g gs =>
      have heq := h'.flatten_append
      rw [List.flatten_cons, List.flatten_cons, List.append_assoc, List.append_assoc] at heq
      obtain ⟨rfl, htails⟩ := IsFrame.append_inj (h'.frame g (by simp)) hf heq
      have htail : Framed sep (fs.flatten ++ r) fs r :=
        ⟨fun x hx => hfs x (List.mem_cons_of_mem _ hx), hr, rfl⟩
      have htail' : Framed sep (fs.flatten ++ r) gs r' :=
        ⟨fun x hx => h'.frame x (List.mem_cons_of_mem _ hx), h'.rest_open, htails⟩
      obtain ⟨rfl, rfl⟩ := ih htail htail'
      exact ⟨rfl, rfl⟩

end Framed

/-- Where a stream of frames is the beginning of another one, its frames are the first of the
other's. -/
theorem isPrefix_of_flatten {gs : List (List α)} (hf : ∀ f ∈ fs, IsFrame sep f)
    (hg : ∀ g ∈ gs, IsFrame sep g) (h : fs.flatten <+: gs.flatten) : fs <+: gs := by
  induction fs generalizing gs with
  | nil => exact List.nil_prefix
  | cons f fs ih =>
    obtain ⟨rest, hrest⟩ := h
    have hf₀ : IsFrame sep f := hf f (by simp)
    cases gs with
    | nil =>
      rw [List.flatten_cons, List.append_assoc] at hrest
      exact absurd hrest.symm (Framed.ne_of_open hf₀ (by simp))
    | cons g gs =>
      rw [List.flatten_cons, List.flatten_cons, List.append_assoc] at hrest
      obtain ⟨rfl, htails⟩ := hf₀.append_inj (hg g (by simp)) hrest
      exact List.cons_prefix_cons.mpr ⟨rfl, ih (fun x hx => hf x (List.mem_cons_of_mem _ hx))
        (fun x hx => hg x (List.mem_cons_of_mem _ hx)) ⟨rest, htails⟩⟩

end MuduoServer
