import Breeze.Lib.Transactions

/-! Processes under row locks: the change a transaction commits, and what a process may rely on while the others commit
theirs. -/

namespace Breeze.Lib.Transactions

variable {σ κ ι ε α β : Type}

structure Rules (σ κ ι : Type) where
  -- one change by the process of this name and number while it holds these rows
  change : ι → ℕ → List κ → σ → σ → Prop
  -- what the others leave of the state for it
  rely : ι → ℕ → List κ → σ → σ → Prop
  -- what is known of the state in which a transaction commits
  ready : ι → σ → Prop

/-- `Apart` are the names that run beside each other, `I` holds of every state, and a number is fresh until its process starts. -/
structure Rules.Sound (R : Rules σ κ ι) (Apart : ι → ι → Prop) (I : σ → Prop) (Fresh : ℕ → σ → Prop) : Prop where
  refl : ∀ {i n held s}, R.rely i n held s s
  trans : ∀ {i n held s₁ s₂ s₃}, R.rely i n held s₁ s₂ → R.rely i n held s₂ s₃ → R.rely i n held s₁ s₃
  rely_mono : ∀ {i n held held' s s'}, held ⊆ held' → R.rely i n held' s s' → R.rely i n held s s'
  change_mono : ∀ {i n held held' s s'}, held ⊆ held' → R.change i n held s s' → R.change i n held' s s'
  frame : ∀ {i j n m held held' s s'}, n ≠ m → Apart i j → (∀ k ∈ held', k ∉ held) → R.change i n held s s' →
    R.rely j m held' s s'
  keeps : ∀ {i n held s s'}, R.change i n held s s' → I s → I s'
  fresh : ∀ {i n m held s s'}, n ≠ m → R.change i n held s s' → Fresh m s → Fresh m s'

/-- Every transaction of the program commits a change it may make, whatever the others do in between; `post` holds at the end, of
the locks and writes of the transaction still open. -/
def Commits (R : Rules σ κ ι) (i : ι) (n : ℕ) :
    Proc σ κ α → List κ → (σ → σ) → σ → (α → List κ → (σ → σ) → σ → Prop) → Prop
  | .done a, held, own, s, post => post a held own s
  | .read next, held, own, s, post => ∀ s', R.rely i n held s s' → Commits R i n (next (own s')) held own s' post
  | .lock row next, held, own, s, post => ∀ s', R.rely i n held s s' → Commits R i n next (row :: held) own s' post
  | .write set next, held, own, s, post => Commits R i n next held (fun x => set (own x)) s post
  | .commit next, held, own, s, post =>
    ∀ s', R.rely i n held s s' → R.ready i s' → R.change i n held s' (own s') ∧ Commits R i n next [] id (own s') post
  | .act ready update next, held, own, s, post =>
    held = [] ∧ own = id ∧ ∀ s', R.rely i n held s s' → ready s' = true →
      R.change i n held s' (update s') ∧ Commits R i n (next s') held own (update s') post

section CommitsRules

variable {R : Rules σ κ ι} {i : ι} {n : ℕ} {held : List κ} {own : σ → σ} {s : σ}

variable {p : Proc σ κ α} {f : Unit → Proc σ κ β}

lemma Commits.bind {mid : α → List κ → (σ → σ) → σ → Prop} {post : β → List κ → (σ → σ) → σ → Prop}
    {f : α → Proc σ κ β} (hp : Commits R i n p held own s mid)
    (hf : ∀ a held own s, mid a held own s → Commits R i n (f a) held own s post) : Commits R i n (p >>= f) held own s post := by
  induction p generalizing held own s with
  | done a => exact hf a held own s hp
  | read next ih => exact fun s' hs' => ih (own s') (hp s' hs')
  | lock row next ih => exact fun s' hs' => ih (hp s' hs')
  | write set next ih => exact ih hp
  | commit next ih => exact fun s' hs' hready => ⟨(hp s' hs' hready).1, ih (hp s' hs' hready).2⟩
  | act ready update next ih =>
    exact ⟨hp.1, hp.2.1, fun s' hs' hready => ⟨(hp.2.2 s' hs' hready).1, ih s' (hp.2.2 s' hs' hready).2⟩⟩

lemma Commits.weaken {post post' : α → List κ → (σ → σ) → σ → Prop} (h : Commits R i n p held own s post)
    (hpost : ∀ a held own s, post a held own s → post' a held own s) : Commits R i n p held own s post' := by
  induction p generalizing held own s with
  | done a => exact hpost a held own s h
  | read next ih => exact fun s' hs' => ih (own s') (h s' hs')
  | lock row next ih => exact fun s' hs' => ih (h s' hs')
  | write set next ih => exact ih h
  | commit next ih => exact fun s' hs' hready => ⟨(h s' hs' hready).1, ih (h s' hs' hready).2⟩
  | act ready update next ih =>
    exact ⟨h.1, h.2.1, fun s' hs' hready => ⟨(h.2.2 s' hs' hready).1, ih s' (h.2.2 s' hs' hready).2⟩⟩

variable {post : β → List κ → (σ → σ) → σ → Prop}

lemma Commits.see_bind {f : σ → Proc σ κ β} (h : ∀ s', R.rely i n held s s' → Commits R i n (f (own s')) held own s' post) :
    Commits R i n (Proc.see >>= f) held own s post := h

lemma Commits.lockRow_bind {row : κ} (h : ∀ s', R.rely i n held s s' → Commits R i n (f ()) (row :: held) own s' post) :
    Commits R i n (Proc.lockRow row >>= f) held own s post := h

lemma Commits.put_bind {set : σ → σ}
    (h : Commits R i n (f ()) held (fun x => set (own x)) s post) : Commits R i n (Proc.put set >>= f) held own s post := h

end CommitsRules

section UpdateOne

variable {R : Rules σ κ ι} {Apart : ι → ι → Prop} {I : σ → Prop} {Fresh : ℕ → σ → Prop} {i : ι} {n : ℕ} {held : List κ}
  {own : σ → σ} {s : σ}

lemma Commits.update_one (hR : R.Sound Apart I Fresh) {found : σ → List κ} {test : σ → κ → σ → Bool} {set : κ → σ → σ} (row : κ)
    (hfound : ∀ s, found s = [] ∨ found s = [row]) :
    Commits R i n (Proc.update found test set) held own s fun rows held' own' s' =>
      R.rely i n held s s' ∧ held ⊆ held' ∧
        ((rows = [] ∧ own' = own ∧ ∃ s₀ s₁, R.rely i n held s s₀ ∧ R.rely i n held s₀ s₁ ∧
            (found (own s₀) = [] ∨ test (own s₀) row (own s₁) = false)) ∨
          (rows = [row] ∧ held' = row :: held ∧ own' = (fun x => set row (own x)) ∧
            ∃ s₀, R.rely i n held s s₀ ∧ test (own s₀) row (own s') = true)) := by
  refine Commits.see_bind fun s₀ h₀ => ?_
  rcases hfound (own s₀) with hf | hf
  · rw [hf]
    exact ⟨h₀, List.Subset.refl _, Or.inl ⟨rfl, rfl, s₀, s₀, h₀, hR.refl, Or.inl hf⟩⟩
  · have hsub : held ⊆ row :: held := List.subset_cons_self _ _
    rw [hf]
    refine Commits.lockRow_bind fun s₁ h₁ => Commits.see_bind fun s₂ h₂ => ?_
    have h₂' := hR.trans h₁ (hR.rely_mono hsub h₂)
    split_ifs with htest
    · exact ⟨hR.trans h₀ h₂', hsub, Or.inr ⟨rfl, rfl, rfl, s₀, h₀, htest⟩⟩
    · exact ⟨hR.trans h₀ h₂', hsub, Or.inl ⟨rfl, rfl, s₀, s₂, h₀, h₂', Or.inr ((Bool.not_eq_true _).mp htest)⟩⟩

end UpdateOne

section UpdateEach

variable {R : Rules σ κ ι} {Apart : ι → ι → Prop} {I : σ → Prop} {Fresh : ℕ → σ → Prop} {i : ι} {n : ℕ}
  {test : κ → σ → Bool} {set : κ → σ → σ}

def setAll (set : κ → σ → σ) (rows : List κ) (s : σ) : σ := rows.foldl (fun s row => set row s) s

lemma test_setAll {row : κ} {rows : List κ} (hindep : ∀ row' ∈ rows, ∀ s, test row (set row' s) = test row s) (s : σ) :
    test row (setAll set rows s) = test row s := by
  induction rows generalizing s with
  | nil => rfl
  | cons r rows ih =>
    rw [setAll, List.foldl_cons, ← setAll, ih fun row' h => hindep row' (List.mem_cons_of_mem _ h), hindep r List.mem_cons_self]

lemma Commits.updateEach (hR : R.Sound Apart I Fresh) {own : σ → σ} {held₀ : List κ} {s₀ : σ} {all : List κ}
    {post : List κ → List κ → (σ → σ) → σ → Prop} (hall : all.Nodup)
    (hindep : ∀ row ∈ all, ∀ row' ∈ all, row ≠ row' → ∀ s, test row (set row' s) = test row s)
    (hstable : ∀ row ∈ all, ∀ held s s', row ∈ held → R.rely i n held₀ s₀ s → R.rely i n held s s' →
      test row (own s') = test row (own s))
    (hpost : ∀ changed held s, held₀ ⊆ held → R.rely i n held₀ s₀ s → changed.Sublist all →
      (∀ row ∈ changed, row ∈ held ∧ test row (own s) = true) → post changed held (fun x => setAll set changed (own x)) s) :
    Commits R i n (Proc.updateEach test set all) held₀ own s₀ post := by
  -- `before` are the rows changed so far, `seen` all the rows tested so far
  suffices h : ∀ (rows seen before held : List κ) (s : σ) (post : List κ → List κ → (σ → σ) → σ → Prop), all = seen ++ rows →
      before.Sublist seen → held₀ ⊆ held → R.rely i n held₀ s₀ s → (∀ row ∈ before, row ∈ held ∧ test row (own s) = true) →
      (∀ changed held s, held₀ ⊆ held → R.rely i n held₀ s₀ s → (before ++ changed).Sublist all →
        (∀ row ∈ before ++ changed, row ∈ held ∧ test row (own s) = true) →
        post changed held (fun x => setAll set (before ++ changed) (own x)) s) →
      Commits R i n (Proc.updateEach test set rows) held (fun x => setAll set before (own x)) s post by
    exact h all [] [] held₀ s₀ post rfl (List.Sublist.refl _) (List.Subset.refl _) hR.refl (fun _ h => by cases h) hpost
  intro rows
  induction rows with
  | nil =>
    intro seen before held s post hseen hbefore hheld hs hpass hpost
    rw [List.append_nil] at hseen
    have hp := hpost [] held s hheld hs (by rwa [List.append_nil, hseen]) (by rwa [List.append_nil])
    rwa [List.append_nil] at hp
  | cons row rows ih =>
    intro seen before held s post hseen hbefore hheld hs hpass hpost
    have hmem : row ∈ all := by rw [hseen]; exact List.mem_append_right _ List.mem_cons_self
    have hnot : row ∉ seen := by
      rw [hseen, List.nodup_append] at hall
      exact fun h => hall.2.2 row h row List.mem_cons_self rfl
    have hsub : ∀ r ∈ before, r ∈ all := fun r hr => by rw [hseen]; exact List.mem_append_left _ (hbefore.subset hr)
    refine Commits.lockRow_bind fun s₁ h₁ => Commits.see_bind fun s₂ h₂ => ?_
    have hheld' : held₀ ⊆ row :: held := List.subset_cons_of_subset _ hheld
    have hs₁ := hR.trans hs (hR.rely_mono hheld h₁)
    have hs₂ := hR.trans hs₁ (hR.rely_mono hheld' h₂)
    have hpass' : ∀ r ∈ before, r ∈ row :: held ∧ test r (own s₂) = true := by
      intro r hr
      obtain ⟨hlocked, htest⟩ := hpass r hr
      refine ⟨List.mem_cons_of_mem _ hlocked, ?_⟩
      rw [hstable r (hsub r hr) _ _ _ (List.mem_cons_of_mem _ hlocked) hs₁ h₂, hstable r (hsub r hr) _ _ _ hlocked hs h₁, htest]
    have hview : test row (setAll set before (own s₂)) = test row (own s₂) :=
      test_setAll (fun row' h => hindep row hmem row' (hsub row' h) fun heq => hnot (heq ▸ hbefore.subset h)) _
    rw [hview]
    split_ifs with htest
    · refine Commits.put_bind ?_
      have hown : (fun x => set row (setAll set before (own x))) = fun x => setAll set (before ++ [row]) (own x) := by
        funext x
        simp [setAll, List.foldl_append]
      rw [hown]
      refine (ih (seen ++ [row]) (before ++ [row]) (row :: held) s₂ (fun changed held own s => post (row :: changed) held own s)
        (by rw [hseen]; simp) (hbefore.append (List.Sublist.refl _)) hheld' hs₂ ?_ ?_).bind fun changed held own s hp => hp
      · intro r hr
        rcases List.mem_append.mp hr with hr | hr
        · exact hpass' r hr
        · rw [List.mem_singleton.mp hr]
          exact ⟨List.mem_cons_self, htest⟩
      · intro changed held' s₃ hheld₃ hs₃ hsublist hpass₃
        rw [List.append_assoc, List.singleton_append] at hsublist hpass₃ ⊢
        exact hpost (row :: changed) held' s₃ hheld₃ hs₃ hsublist hpass₃
    · exact ih (seen ++ [row]) before (row :: held) s₂ post (by rw [hseen]; simp)
        (hbefore.trans (List.sublist_append_left _ _)) hheld' hs₂ hpass' hpost

end UpdateEach

section Kept

variable {R : Rules σ κ ι} {Apart : ι → ι → Prop} {I : σ → Prop} {Fresh : ℕ → σ → Prop}

lemma Commits.later (hR : R.Sound Apart I Fresh) {i : ι} {n : ℕ} {held : List κ} {own : σ → σ} {s s' : σ} {p : Proc σ κ Unit}
    (hs : R.rely i n held s s') (h : Commits R i n p held own s fun _ _ _ _ => True) :
    Commits R i n p held own s' fun _ _ _ _ => True := by
  induction p generalizing own with
  | done a => trivial
  | read next ih | lock row next ih | commit next ih => exact fun s'' hs'' => h s'' (hR.trans hs hs'')
  | write set next ih => exact ih h
  | act ready update next ih => exact ⟨h.1, h.2.1, fun s'' hs'' => h.2.2 s'' (hR.trans hs hs'')⟩

/-- Between two steps: the state keeps `I`, and what is left of every process commits its changes. -/
structure Kept (R : Rules σ κ ι) (Apart : ι → ι → Prop) (I : σ → Prop) (Fresh : ℕ → σ → Prop) (c : Config σ κ ι) : Prop where
  state : I c.state
  commits : ∀ (n : ℕ) (t : Thread σ κ ι), c.threads[n]? = some t →
    Commits R t.name n t.program t.locks t.pending c.state fun _ _ _ _ => True
  exclusive : c.Exclusive
  apart : ∀ (n m : ℕ) (t u : Thread σ κ ι), n ≠ m → c.threads[n]? = some t → c.threads[m]? = some u → t.program.finished = false →
    u.program.finished = false → Apart t.name u.name
  fresh : ∀ n, c.threads.length ≤ n → Fresh n c.state

variable {c : Config σ κ ι} {n : ℕ} {t : Thread σ κ ι}

lemma Kept.program (h : Kept R Apart I Fresh c) (hn : c.threads[n]? = some t) {p : Proc σ κ Unit} (hp : t.program = p) :
    Commits R t.name n p t.locks t.pending c.state fun _ _ _ _ => True := hp ▸ h.commits n t hn

lemma Kept.set (hR : R.Sound Apart I Fresh) (h : Kept R Apart I Fresh c) (hn : c.threads[n]? = some t) {s' : σ}
    (t' : Thread σ κ ι) (hrun : t'.program.finished = false → t.program.finished = false)
    (hchange : s' = c.state ∨ t.program.finished = false ∧ R.change t.name n t.locks c.state s') (hname : t'.name = t.name)
    (hcommits : Commits R t.name n t'.program t'.locks t'.pending s' fun _ _ _ _ => True)
    (hexclusive : Config.Exclusive { state := s', threads := c.threads.set n t' }) :
    Kept R Apart I Fresh { state := s', threads := c.threads.set n t' } := by
  -- what the step is for another process
  have hother : ∀ (m : ℕ) (u : Thread σ κ ι), m ≠ n → c.threads[m]? = some u → u.program.finished = false →
      R.rely u.name m u.locks c.state s' := by
    intro m u hm hu hfu
    rcases hchange with rfl | ⟨hft, hchange⟩
    · exact hR.refl
    refine hR.frame hm.symm (h.apart n m t u hm.symm hn hu hft hfu) (fun k hk hkt => hm.symm ?_) hchange
    refine h.exclusive n m t u k hn hu ?_ ?_
    · rwa [Config.held_of_program hft]
    · rwa [Config.held_of_program hfu]
  refine ⟨?_, ?_, hexclusive, ?_, ?_⟩
  · rcases hchange with rfl | ⟨-, hchange⟩
    · exact h.state
    · exact hR.keeps hchange h.state
  · intro m u hm
    rcases Config.get_set hm with ⟨rfl, rfl⟩ | ⟨hne, hm⟩
    · rwa [hname]
    · cases hfu : u.program.finished with
      | true =>
        cases hp : u.program with
        | done a => trivial
        | read | lock | write | commit | act => simp [hp, Proc.finished] at hfu
      | false => exact (h.commits m u hm).later hR (hother m u hne hm hfu)
  · intro a b v u hab ha hb hv hu
    rcases Config.get_set ha with ⟨rfl, rfl⟩ | ⟨-, ha'⟩
    · rcases Config.get_set hb with ⟨rfl, rfl⟩ | ⟨-, hb'⟩
      · exact absurd rfl hab
      · rw [hname]
        exact h.apart _ _ _ _ hab hn hb' (hrun hv) hu
    · rcases Config.get_set hb with ⟨rfl, rfl⟩ | ⟨-, hb'⟩
      · rw [hname]
        exact h.apart _ _ _ _ hab ha' hn hv (hrun hu)
      · exact h.apart _ _ _ _ hab ha' hb' hv hu
  · intro m hm
    rw [List.length_set] at hm
    rcases hchange with rfl | ⟨-, hchange⟩
    · exact h.fresh m hm
    · have hlt : n < c.threads.length := (List.getElem?_eq_some_iff.mp hn).1
      exact hR.fresh (by omega) hchange (h.fresh m hm)

variable [DecidableEq κ]

lemma Kept.step (hR : R.Sound Apart I Fresh) {S : System σ κ ι ε} (h : Kept R Apart I Fresh c) (m : Move ι ε)
    (hstart : ∀ i, m = .start i →
      Commits R i c.threads.length (S.program i c.threads.length) [] id c.state (fun _ _ _ _ => True) ∧
      ∀ (n : ℕ) (t : Thread σ κ ι), c.threads[n]? = some t → t.program.finished = false → Apart i t.name ∧ Apart t.name i)
    (hnature : ∀ e, m = .nature e → I (S.nature e c.state) ∧ (∀ j k held, R.rely j k held c.state (S.nature e c.state)) ∧
      ∀ k, Fresh k c.state → Fresh k (S.nature e c.state))
    (hready : ∀ (n : ℕ) (t : Thread σ κ ι) next, m = .advance n → c.threads[n]? = some t → t.program = .commit next →
      R.ready t.name c.state) :
    Kept R Apart I Fresh (Config.step S c m) := by
  have hexclusive := h.exclusive.step (S := S) m
  have hmoved := Config.step_moved S c m
  generalize Config.step S c m = c' at hmoved hexclusive ⊢
  cases hmoved with
  | idle => exact h
  | started i =>
    obtain ⟨hcommits, hapart⟩ := hstart i rfl
    refine ⟨h.state, ?_, hexclusive, ?_, ?_⟩
    · intro k u hu
      rcases Config.get_append hu with hu | ⟨rfl, rfl⟩
      · exact h.commits k u hu
      · exact hcommits
    · intro a b v u hab ha hb hv hu
      rcases Config.get_append ha with ha | ⟨rfl, rfl⟩
      · rcases Config.get_append hb with hb | ⟨rfl, rfl⟩
        · exact h.apart a b v u hab ha hb hv hu
        · exact (hapart a v ha hv).2
      · rcases Config.get_append hb with hb | ⟨rfl, rfl⟩
        · exact (hapart b u hb hu).1
        · exact absurd rfl hab
    · intro k hk
      rw [List.length_append] at hk
      exact h.fresh k (by omega)
  | natural e =>
    obtain ⟨hI, hrely, hfresh⟩ := hnature e rfl
    exact ⟨hI, fun k u hu => (h.commits k u hu).later hR (hrely _ _ _), hexclusive, h.apart,
      fun k hk => hfresh k (h.fresh k hk)⟩
  | stopped n t hn => exact h.set hR hn { name := t.name, program := .done () } nofun (Or.inl rfl) rfl trivial hexclusive
  | read n t next hn hp =>
    exact h.set hR hn { t with program := next (t.pending c.state) } (fun _ => hp ▸ rfl) (Or.inl rfl) rfl
      (h.program hn hp c.state hR.refl) hexclusive
  | locked n t row next hn hp hfree =>
    exact h.set hR hn { t with locks := row :: t.locks, program := next } (fun _ => hp ▸ rfl) (Or.inl rfl) rfl
      (h.program hn hp c.state hR.refl) hexclusive
  | wrote n t set next hn hp =>
    exact h.set hR hn { t with pending := fun s => set (t.pending s), program := next } (fun _ => hp ▸ rfl) (Or.inl rfl) rfl
      (h.program hn hp) hexclusive
  | committed n t next hn hp =>
    obtain ⟨hchange, hnext⟩ := h.program hn hp c.state hR.refl (hready n t next rfl hn hp)
    exact h.set hR hn { name := t.name, program := next } (fun _ => hp ▸ rfl) (Or.inr ⟨hp ▸ rfl, hchange⟩) rfl hnext hexclusive
  | acted n t ready update next hn hp hreached =>
    obtain ⟨hchange, hnext⟩ := (h.program hn hp).2.2 c.state hR.refl hreached
    exact h.set hR hn { t with program := next c.state } (fun _ => hp ▸ rfl) (Or.inr ⟨hp ▸ rfl, hchange⟩) rfl hnext hexclusive

end Kept

end Breeze.Lib.Transactions
