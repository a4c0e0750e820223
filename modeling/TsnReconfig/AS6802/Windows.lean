import TsnReconfig.AS6802.TTPort

/-!
# Windows of a schedule

The windows that the shaper knows next, and what its check for overlapping windows tells.
-/

namespace TsnReconfig.AS6802

open Gates Shaper

/-! ## The registered windows -/

namespace TTConfig
variable {c : TTConfig}

/-- No buffer is registered twice, and no two of them with overlapping windows. -/
structure Accepted (c : TTConfig) : Prop where
  nodup : c.ttBuffers.Nodup
  apart : ∀ b ∈ c.ttBuffers, ∀ b' ∈ c.ttBuffers, b ≠ b' →
    overlapping (c.ttBuffer b) (c.ttBuffer b') = false

theorem sendTime_mono {m m' : ℕ} (h : m ≤ m') : c.sendTime m ≤ c.sendTime m' := by
  unfold sendTime
  exact Nat.mul_le_mul_right _ (by omega)

/-- The windows of two buffers never start at the same time. -/
theorem Feasible.ne (h : c.Feasible) {b b' t t' : ℕ} (hb : b ∈ c.ttBuffers)
    (hb' : b' ∈ c.ttBuffers) (ht : (c.ttBuffer b).Opens t) (ht' : (c.ttBuffer b').Opens t')
    (hne : b ≠ b') : t ≠ t' := by
  rintro rfl
  have hlt := h b hb b' hb' t t ht ht' le_rfl fun heq => hne (Prod.mk.inj heq).1
  omega

end TTConfig

/-- The next window of each buffer, in their order. -/
structure Windows (c : TTConfig) (now : ℕ) (l : List (ℕ × ℕ)) : Prop where
  registered : (l.map (·.2)).Perm c.ttBuffers
  sorted : l.Pairwise (·.1 < ·.1)
  opens : ∀ x ∈ l, (c.ttBuffer x.2).Opens x.1
  future : ∀ x ∈ l, now ≤ x.1 * c.tick
  past : ∀ x ∈ l, ∀ s, (c.ttBuffer x.2).Opens s → s < x.1 → s * c.tick ≤ now

namespace Windows
variable {c : TTConfig} {now s b : ℕ} {l rest : List (ℕ × ℕ)}

theorem mem_ttBuffers (h : Windows c now l) {x : ℕ × ℕ} (hx : x ∈ l) : x.2 ∈ c.ttBuffers :=
  h.registered.mem_iff.mp (List.mem_map_of_mem hx)

theorem exists_mem (h : Windows c now l) (hb : b ∈ c.ttBuffers) : ∃ k, (k, b) ∈ l := by
  obtain ⟨⟨k, b'⟩, hx, rfl⟩ := List.mem_map.mp (h.registered.mem_iff.mpr hb)
  exact ⟨k, hx⟩

/-- The window that starts now is the first one. -/
theorem eq_cons (h : Windows c now l) (hx : (s, b) ∈ l) (hnow : now = s * c.tick) :
    ∃ rest, l = (s, b) :: rest := by
  cases l with
  | nil => cases hx
  | cons first rest =>
    rcases List.mem_cons.mp hx with heq | hx
    · exact ⟨rest, by rw [heq]⟩
    · have hlt := (List.pairwise_cons.mp h.sorted).1 _ hx
      have hfirst := h.future first List.mem_cons_self
      rw [hnow] at hfirst
      have hle := Nat.le_of_mul_le_mul_right hfirst c.tick_pos
      dsimp only at hlt
      omega

/-- Nothing that ends before the next windows straddles the start of any window. -/
theorem apart (h : Windows c now l) {finish : ℕ} (hfinish : ∀ x ∈ l, finish < x.1 * c.tick)
    (hb : b ∈ c.ttBuffers) (hs : (c.ttBuffer b).Opens s) :
    s * c.tick ≤ now ∨ finish < s * c.tick := by
  obtain ⟨k, hk⟩ := h.exists_mem hb
  rcases lt_or_ge s k with hlt | hge
  · exact .inl (h.past _ hk s hs hlt)
  · exact .inr ((hfinish _ hk).trans_le (Nat.mul_le_mul_right _ hge))

/-- The buffer whose window has started is registered for the next cycle. -/
theorem next (h : Windows c now ((s, b) :: rest)) (hf : c.Feasible) (hc : c.Accepted)
    (hnow : now = s * c.tick) :
    Windows c now (rest.orderedInsert (fun x y => x.1 ≤ y.1)
      (s + (c.ttBuffer b).period.cycleTicks, b)) ∧
    (∀ x ∈ rest, x.1 ≠ s + (c.ttBuffer b).period.cycleTicks ∧
      TTConfig.overlapping (c.ttBuffer b) (c.ttBuffer x.2) = false) := by
  have hb : b ∈ c.ttBuffers := h.mem_ttBuffers (x := (s, b)) List.mem_cons_self
  have hopens := h.opens (s, b) List.mem_cons_self
  obtain ⟨hfirst, hsorted⟩ := List.pairwise_cons.mp h.sorted
  have hother : ∀ x ∈ rest, x.2 ∈ c.ttBuffers ∧ b ≠ x.2 := by
    intro x hx
    refine ⟨h.mem_ttBuffers (List.mem_cons_of_mem _ hx), fun heq => ?_⟩
    have hnodup := h.registered.nodup_iff.mpr hc.nodup
    rw [List.map_cons, List.nodup_cons] at hnodup
    exact hnodup.1 (List.mem_map.mpr ⟨x, hx, heq.symm⟩)
  have hne : ∀ x ∈ rest, x.1 ≠ s + (c.ttBuffer b).period.cycleTicks := by
    intro x hx
    exact (hf.ne hb (hother x hx).1 hopens.add_cycleTicks
      (h.opens x (List.mem_cons_of_mem _ hx)) (hother x hx).2).symm
  have hmem : ∀ x ∈ rest.orderedInsert (fun x y => x.1 ≤ y.1)
      (s + (c.ttBuffer b).period.cycleTicks, b),
      x = (s + (c.ttBuffer b).period.cycleTicks, b) ∨ x ∈ rest := fun x hx =>
    List.mem_cons.mp ((List.perm_orderedInsert _ _ _).mem_iff.mp hx)
  refine ⟨⟨?_, TTShaper.pairwise_orderedInsert hsorted hne, fun x hx => ?_, fun x hx => ?_,
    fun x hx s' hs' hlt => ?_⟩, fun x hx => ⟨hne x hx, ?_⟩⟩
  · exact ((List.perm_orderedInsert _ _ _).map _).trans h.registered
  · rcases hmem x hx with rfl | hx
    · exact hopens.add_cycleTicks
    · exact h.opens x (List.mem_cons_of_mem _ hx)
  · rcases hmem x hx with rfl | hx
    · rw [hnow]
      exact Nat.mul_le_mul_right _ (Nat.le_add_right _ _)
    · exact h.future x (List.mem_cons_of_mem _ hx)
  · rcases hmem x hx with rfl | hx
    · -- the window before the next one is the one that has started
      have hle : s' ≤ s := by
        by_contra hgt
        have hadd := TTBuffer.Opens.add_le hopens hs' (not_le.mp hgt)
        dsimp only at hadd hlt
        omega
      rw [hnow]
      exact Nat.mul_le_mul_right _ hle
    · exact h.past x (List.mem_cons_of_mem _ hx) s' hs' hlt
  · exact hc.apart b hb x.2 (hother x hx).1 (hother x hx).2

/-- A frame of the window that has started leaves the MAC free again before the next ones. -/
theorem lt_of_feasible (h : Windows c now l) (hf : c.Feasible) (hb : b ∈ c.ttBuffers)
    (hs : (c.ttBuffer b).Opens s) (hnow : now = s * c.tick) (hne : ∀ x ∈ l, (b, s) ≠ (x.2, x.1))
    {byteLength : ℕ} (hmax : byteLength ≤ (c.ttBuffer b).maxMessageSize) :
    ∀ x ∈ l, now + c.sendTime byteLength < x.1 * c.tick := by
  intro x hx
  have hfuture := h.future x hx
  rw [hnow] at hfuture ⊢
  have hle := Nat.le_of_mul_le_mul_right hfuture c.tick_pos
  have hlt := hf b hb x.2 (h.mem_ttBuffers hx) s x.1 hs (h.opens x hx) hle (hne x hx)
  have hmono := c.sendTime_mono (hmax.trans (le_max_right minEthernetFrameBytes _))
  omega

end Windows

/-! ## What the shaper checks -/

namespace TTConfig
variable {c : TTConfig} {period : Period}

end TTConfig

end TsnReconfig.AS6802
