import EmsFixtures.Snmp.Agent

/-!
# One body, one outcome

The keys of a `PUT /oids` body are strings, and a JSON object gives each of them one value; the value map is keyed by
what they parse to.  `parse_oid` takes `1.3`, `1.03` and `+1.3` for the same OID, so a body may give an OID two values,
and the hash map's order says which of them stays.  The order plays no part iff the keys that are one OID have one
value (`put_order_iff`).
-/

namespace EmsFixtures.Snmp

open HashMap

/-- The keys of a body that are the same OID have the same value. -/
def OneMeaning (body : SetOids) : Prop := ∀ e ∈ body, ∀ e' ∈ body, parseOid e.1 = parseOid e'.1 → e.2 = e'.2

/-- What an entry of an accepted body writes. -/
def entryOf (e : String × Int64) : Oid × Int64 := ((parseOid e.1).getD [], e.2)

theorem parseBody_eq_map {body : SetOids} (h : ∀ e ∈ body, parseOid e.1 ≠ none) :
    parseBody body = some (body.map entryOf) := by
  unfold parseBody
  induction body with
  | nil => rfl
  | cons e body ih =>
    obtain ⟨oid, hoid⟩ := Option.ne_none_iff_exists'.1 (h e List.mem_cons_self)
    have hrest := ih fun e' he' => h e' (List.mem_cons_of_mem _ he')
    have hentry : entryOf e = (oid, e.2) := by rw [entryOf, hoid, Option.getD_some]
    rw [List.mapM_cons, hrest, hoid, List.map_cons, hentry]
    rfl

theorem putOids_accepted_iff {s : Agent} {body : SetOids} :
    (s.putOids body).2 = .noContent ↔ ∀ e ∈ body, parseOid e.1 ≠ none := by
  have hnone : parseBody body = none ↔ ∃ e ∈ body, parseOid e.1 = none := parseBody_eq_none_iff
  unfold Agent.putOids
  cases hp : parseBody body with
  | none =>
    obtain ⟨e, he, hbad⟩ := hnone.1 hp
    exact iff_of_false (by simp) fun h => h e he hbad
  | some parsed =>
    refine iff_of_true rfl fun e he hbad => ?_
    have := hnone.2 ⟨e, he, hbad⟩
    rw [hp] at this
    cases this

/-- What an accepted body does. -/
theorem putOids_eq {s : Agent} {body : SetOids} (h : ∀ e ∈ body, parseOid e.1 ≠ none) : s.putOids body =
    ({ values := s.values.insertAll (body.map entryOf)
       driven := s.driven ∪ ((body.map entryOf).map Prod.fst).toFinset }, .noContent) := by
  unfold Agent.putOids
  rw [parseBody_eq_map h]
  simp only [Agent.foldl_drive]

theorem oneValued_map_entryOf {body : SetOids} (h : ∀ e ∈ body, parseOid e.1 ≠ none) (hone : OneMeaning body) :
    OneValued (body.map entryOf) := by
  intro x hx y hy hxy
  obtain ⟨e, he, rfl⟩ := List.mem_map.1 hx
  obtain ⟨e', he', rfl⟩ := List.mem_map.1 hy
  obtain ⟨oid, hoid⟩ := Option.ne_none_iff_exists'.1 (h e he)
  obtain ⟨oid', hoid'⟩ := Option.ne_none_iff_exists'.1 (h e' he')
  apply hone e he e' he'
  rw [hoid, hoid']
  simpa [entryOf, hoid, hoid'] using hxy

/-- The order in which an accepted body is applied plays no part iff the keys that are one OID have one value. -/
theorem put_order_iff (s : Agent) (body : SetOids) (haccepted : (s.putOids body).2 = .noContent) :
    (∀ order order' : SetOids, order.Perm body → order'.Perm body → s.putOids order = s.putOids order') ↔
      OneMeaning body := by
  have hparse := putOids_accepted_iff.1 haccepted
  have hperm : ∀ order : SetOids, order.Perm body → ∀ e ∈ order, parseOid e.1 ≠ none :=
    fun order hp e he => hparse e (hp.mem_iff.1 he)
  constructor
  · intro h e he e' he' hkey
    -- in one order the entry comes last, in another the other one
    have hlast : ∀ e ∈ body, ∃ order : SetOids, order.Perm body ∧
        (s.putOids order).1.values.lookup (entryOf e).1 = some e.2 := by
      intro e he
      have hp : (body.erase e ++ [e]).Perm body :=
        List.perm_append_comm.trans (List.perm_cons_erase he).symm
      refine ⟨_, hp, ?_⟩
      rw [putOids_eq (hperm _ hp), List.map_append]
      exact lookup_insertAll_concat _ _ (entryOf e)
    obtain ⟨order, hp, hvalue⟩ := hlast e he
    obtain ⟨order', hp', hvalue'⟩ := hlast e' he'
    have hsame : (entryOf e).1 = (entryOf e').1 := by rw [entryOf, entryOf, hkey]
    rw [h order order' hp hp', hsame, hvalue'] at hvalue
    exact (Option.some.inj hvalue).symm
  · intro hone
    have hbody : ∀ order : SetOids, order.Perm body → s.putOids order = s.putOids body := by
      intro order hp
      have hmap : (body.map entryOf).Perm (order.map entryOf) := (hp.map entryOf).symm
      have hkeys : ((order.map entryOf).map Prod.fst).toFinset = ((body.map entryOf).map Prod.fst).toFinset :=
        List.toFinset_eq_of_perm _ _ ((hmap.map Prod.fst).symm)
      rw [putOids_eq (hperm order hp), putOids_eq hparse, hkeys,
        insertAll_perm s.values (oneValued_map_entryOf hparse hone) hmap]
    intro order order' hp hp'
    rw [hbody order hp, hbody order' hp']

/-- Two OIDs, one of them written twice with the same value. -/
theorem put_order_iff_spelled : (Agent.start ℚ).putOids [("1.3.1", 5), ("1.3.2", 6), ("1.3.02", 6)] =
    (Agent.start ℚ).putOids [("1.3.2", 6), ("1.3.1", 5), ("1.3.02", 6)] := by
  have h₁ : parseOid "1.3.1" = some [1, 3, 1] := by decide +kernel
  have h₂ : parseOid "1.3.2" = some [1, 3, 2] := by decide +kernel
  have h₃ : parseOid "1.3.02" = some [1, 3, 2] := by decide +kernel
  have haccepted : ((Agent.start ℚ).putOids [("1.3.1", 5), ("1.3.2", 6), ("1.3.02", 6)]).2 = .noContent := by
    rw [putOids_accepted_iff]
    simp [h₁, h₂, h₃]
  refine (put_order_iff (Agent.start ℚ) _ haccepted).2 ?_ _ _ (List.Perm.refl _) (List.Perm.swap ..)
  simp [OneMeaning, h₁, h₂, h₃]

/-- `{"1.3": 5, "1.03": 6}` writes 6 or 5 to OID 1.3, by the order the hash map yields its keys in. -/
theorem put_order_matters : ∃ order order' : SetOids, order.Perm order' ∧ (order.map Prod.fst).Nodup ∧
    ((Agent.start ℚ).putOids order).2 = .noContent ∧ ((Agent.start ℚ).putOids order').2 = .noContent ∧
    ((Agent.start ℚ).putOids order).1.values.lookup [1, 3] = some 6 ∧
    ((Agent.start ℚ).putOids order').1.values.lookup [1, 3] = some 5 ∧
    (Agent.start ℚ).putOids order ≠ (Agent.start ℚ).putOids order' := by
  have h₆ : ((Agent.start ℚ).putOids [("1.3", 5), ("1.03", 6)]).1.values.lookup [1, 3] = some 6 := by decide +kernel
  have h₅ : ((Agent.start ℚ).putOids [("1.03", 6), ("1.3", 5)]).1.values.lookup [1, 3] = some 5 := by decide +kernel
  refine ⟨[("1.3", 5), ("1.03", 6)], [("1.03", 6), ("1.3", 5)], List.Perm.swap .., by decide, by decide +kernel,
    by decide +kernel, h₆, h₅, fun h => ?_⟩
  rw [h, h₅] at h₆
  cases h₆

end EmsFixtures.Snmp
