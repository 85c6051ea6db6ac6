import CodeAssist.Proofs.Json.Known

namespace CodeAssist.Json

/-! Every unsigned integer that is scanned has the width its shape asks for. -/

mutual

/-- Every unsigned integer of the value has the width that the shape asks for. -/
def Shape.Fits : (shape : Shape) → shape.Value → Prop
  | .any, _ | .text _, _ | .flag, _ | .choice _, _ => True
  | .unsigned width, n => n < width.bound
  | .optional shape, value => ∀ v ∈ value, shape.Fits v
  | .list shape, values => ∀ v ∈ values, shape.Fits v
  | .table shape, members => ∀ member ∈ members, shape.Fits member.2
  | .record _ fields, values => fields.Fits values

def Fields.Fits : (fields : Fields) → fields.Value → Prop
  | .nil, _ => True
  | .cons _ shape true rest, (value, values) => (∀ v ∈ value, shape.Fits v) ∧ rest.Fits values
  | .cons _ shape false rest, (value, values) => shape.Fits value ∧ rest.Fits values

end

/-- So far every unsigned integer has its width. -/
def Fields.PartFits : (fields : Fields) → fields.Partial → Prop
  | .nil, _ => True
  | .cons _ shape _ rest, (value, values) => (∀ v ∈ value, shape.Fits v) ∧ rest.PartFits values

section

variable {α σ : Type} {depth n : Nat} {first : Bool} {c c' : Cursor}

theorem fits_readItems {item : Cursor → Except ReadError (α × Cursor)} {P : α → Prop}
    (h : ∀ c a c', item c = .ok (a, c') → P a) {items : List α}
    (hread : readItems item n first [] c = .ok (items, c')) : ∀ a ∈ items, P a := by
  induction n generalizing first items c with
  | zero => cases hread
  | succ n ih =>
      obtain ⟨_, -, rfl, -⟩ | ⟨c₁, a, c₂, later, -, hitem, hlater, rfl⟩ := readItems_eq_ok_iff.mp hread
      · exact nofun
      · exact List.forall_mem_cons.mpr ⟨h _ _ _ hitem, ih hlater⟩

theorem fits_readMembers {member : String → Cursor → σ → Except ReadError (σ × Cursor)}
    {P : σ → Prop} (h : ∀ key c state state' c', P state → member key c state = .ok (state', c') →
      P state') {state state' : σ} (hstate : P state)
    (hread : readMembers member n first state c = .ok (state', c')) : P state' := by
  induction n generalizing first state c with
  | zero => cases hread
  | succ n ih =>
      obtain ⟨-, rfl⟩ | ⟨_, _, _, _, _, -, -, hmember, hlater⟩ := readMembers_eq_ok_iff.mp hread
      · exact hstate
      · exact ih (h _ _ _ _ _ hstate hmember) hlater

theorem Fields.partFits_blank : (fields : Fields) → fields.PartFits fields.blank
  | .nil => trivial
  | .cons _ _ _ rest => ⟨nofun, rest.partFits_blank⟩

theorem Fields.fits_complete : (fields : Fields) → {met : fields.Partial} → {values : fields.Value} →
    fields.PartFits met → fields.complete met = .ok values → fields.Fits values
  | .nil, _, _, _, _ => trivial
  | .cons _ shape true rest, (old, earlier), (value, values), hmet, h => by
      rw [complete] at h
      simp only [bind_eq_ok_iff, Except.ok.injEq, Prod.mk.injEq] at h
      obtain ⟨_, hlater, rfl, rfl⟩ := h
      exact ⟨hmet.1, rest.fits_complete hmet.2 hlater⟩
  | .cons _ shape false rest, (some old, earlier), (value, values), hmet, h => by
      rw [complete] at h
      simp only [bind_eq_ok_iff, Except.ok.injEq, Prod.mk.injEq] at h
      obtain ⟨_, hlater, rfl, rfl⟩ := h
      exact ⟨hmet.1 _ rfl, rest.fits_complete hmet.2 hlater⟩
  | .cons name shape false rest, (none, earlier), (value, values), hmet, h => by
      rw [complete] at h
      simp only [bind_eq_ok_iff, Except.ok.injEq, Prod.mk.injEq] at h
      obtain ⟨_, habsent, _, hlater, rfl, rfl⟩ := h
      refine ⟨?_, rest.fits_complete hmet.2 hlater⟩
      -- Of the fields that must be there only an optional one may be left out, and is none then.
      cases shape <;> cases habsent
      intro v hv
      cases hv

mutual

theorem Shape.fits_of_scan : (shape : Shape) → (depth : Nat) → (c : Cursor) → (v : shape.Value) →
    (c' : Cursor) → shape.scan depth c = .ok (v, c') → shape.Fits v
  | .any, _, _, _, _, _ | .text _, _, _, _, _, _ | .flag, _, _, _, _, _ | .choice _, _, _, _, _, _ =>
      trivial
  | .unsigned width, depth, c, v, c', h => by
      obtain ⟨number, -, hvalue⟩ := scanUnsigned_iff.mp h
      exact (unsignedOf_iff.mp hvalue).2
  | .optional shape, depth, c, value, c', h => by
      by_cases hfirst : ∃ rest, c.skipBlank.rest = 110 :: rest
      · obtain ⟨rest, hfirst⟩ := hfirst
        obtain ⟨-, rfl⟩ := (scan_optional_null hfirst).mp h
        exact nofun
      · obtain ⟨v, hscan, rfl⟩ := (scan_optional_iff fun rest hrest => hfirst ⟨rest, hrest⟩).mp h
        rintro _ ⟨⟩
        exact shape.fits_of_scan depth _ v c' hscan
  | .list shape, depth, c, values, c', h => by
      rw [Shape.scan] at h
      obtain ⟨⟨b, c₁⟩, -, h⟩ := bind_eq_ok_iff.mp h
      dsimp only at h
      split at h
      · cases h
      split at h
      · cases h
      exact fits_readItems (shape.fits_of_scan (depth - 1)) h
  | .table shape, depth, c, members, c', h => by
      rw [Shape.scan] at h
      obtain ⟨⟨b, c₁⟩, -, h⟩ := bind_eq_ok_iff.mp h
      dsimp only at h
      split at h
      · cases h
      split at h
      · cases h
      obtain ⟨⟨found, c₂⟩, hread, heq⟩ := bind_eq_ok_iff.mp h
      cases heq
      refine fun member hmem => fits_readMembers
        (P := fun found => ∀ member ∈ found, shape.Fits member.2) ?_ nofun hread member
        (List.mem_reverse.mp hmem)
      intro key c before after c' hbefore hmember
      obtain ⟨c₃, -, hmember⟩ := bind_eq_ok_iff.mp hmember
      obtain ⟨⟨value, c₄⟩, hscan, heq⟩ := bind_eq_ok_iff.mp hmember
      cases heq
      exact List.forall_mem_cons.mpr ⟨shape.fits_of_scan (depth - 1) _ _ _ hscan, hbefore⟩
  | .record name fields, depth, c, values, c', h => by
      rw [Shape.scan] at h
      obtain ⟨⟨b, c₁⟩, -, h⟩ := bind_eq_ok_iff.mp h
      dsimp only at h
      split at h
      · split at h
        · cases h
        obtain ⟨⟨_, c₂⟩, hscan, h⟩ := bind_eq_ok_iff.mp h
        obtain ⟨c₃, -, heq⟩ := bind_eq_ok_iff.mp h
        cases heq
        exact fields.fits_scanItems _ _ _ _ _ _ _ hscan
      · split at h
        · split at h
          · cases h
          obtain ⟨⟨met, c₂⟩, hread, h⟩ := bind_eq_ok_iff.mp h
          have hmet := fits_readMembers (P := fields.PartFits)
            (fun key c before after c' => fields.partFits_scanMember _ key c before after c')
            fields.partFits_blank hread
          cases hcomplete : fields.complete met with
          | error => simp [hcomplete] at h
          | ok found =>
              simp only [hcomplete, Except.ok.injEq, Prod.mk.injEq] at h
              exact h.1 ▸ fields.fits_complete hmet hcomplete
        · cases h

theorem Fields.fits_scanItems : (fields : Fields) → (depth : Nat) → (expected : String) →
    (index : Nat) → (first : Bool) → (c : Cursor) → (values : fields.Value) → (c' : Cursor) →
      fields.scanItems depth expected index first c = .ok (values, c') → fields.Fits values
  | .nil, _, _, _, _, _, _, _, _ => trivial
  | .cons name shape true rest, depth, expected, index, first, c, (value, values), c', h => by
      rw [Fields.scanItems] at h
      obtain ⟨⟨more, c₁⟩, -, h⟩ := bind_eq_ok_iff.mp h
      cases more with
      | true =>
          obtain ⟨⟨v, c₂⟩, hscan, h⟩ := bind_eq_ok_iff.mp h
          obtain ⟨⟨vs, c₃⟩, hlater, heq⟩ := bind_eq_ok_iff.mp h
          cases heq
          refine ⟨?_, rest.fits_scanItems _ _ _ _ _ _ _ hlater⟩
          rintro _ ⟨⟩
          exact shape.fits_of_scan depth _ _ _ hscan
      | false =>
          obtain ⟨⟨vs, c₃⟩, hlater, heq⟩ := bind_eq_ok_iff.mp h
          cases heq
          exact ⟨nofun, rest.fits_scanItems _ _ _ _ _ _ _ hlater⟩
  | .cons name shape false rest, depth, expected, index, first, c, (value, values), c', h => by
      rw [Fields.scanItems] at h
      obtain ⟨⟨more, c₁⟩, -, h⟩ := bind_eq_ok_iff.mp h
      cases more with
      | true =>
          obtain ⟨⟨v, c₂⟩, hscan, h⟩ := bind_eq_ok_iff.mp h
          obtain ⟨⟨vs, c₃⟩, hlater, heq⟩ := bind_eq_ok_iff.mp h
          cases heq
          exact ⟨shape.fits_of_scan depth _ _ _ hscan, rest.fits_scanItems _ _ _ _ _ _ _ hlater⟩
      | false => cases h

theorem Fields.partFits_scanMember : (fields : Fields) → (depth : Nat) → (key : String) →
    (c : Cursor) → (met met' : fields.Partial) → (c' : Cursor) → fields.PartFits met →
      fields.scanMember depth key c met = .ok (met', c') → fields.PartFits met'
  | .nil, _, _, _, _, _, _, _, _ => trivial
  | .cons name shape _ rest, depth, key, c, (old, earlier), (new, later), c', hmet, h => by
      rw [Fields.scanMember] at h
      split at h
      · split at h
        · cases h
        obtain ⟨c₁, -, h⟩ := bind_eq_ok_iff.mp h
        obtain ⟨⟨v, c₂⟩, hscan, heq⟩ := bind_eq_ok_iff.mp h
        cases heq
        refine ⟨?_, hmet.2⟩
        rintro _ ⟨⟩
        exact shape.fits_of_scan depth _ _ _ hscan
      · obtain ⟨⟨between, c₁⟩, hmember, heq⟩ := bind_eq_ok_iff.mp h
        cases heq
        exact ⟨hmet.1, rest.partFits_scanMember _ _ _ _ _ _ hmet.2 hmember⟩

end

theorem Shape.fits_of_parse {shape : Shape} {text : Text.Bytes} {value : shape.Value}
    (h : shape.parse text = .ok value) : shape.Fits value := by
  obtain ⟨c, hscan, -⟩ := readAll_eq_ok_iff.mp h
  exact shape.fits_of_scan maxDepth _ value c hscan

end

end CodeAssist.Json
