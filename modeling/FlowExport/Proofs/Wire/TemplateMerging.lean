/-
# A template message is retained whole or not at all

`merge_template_exact` says what merging a template message comes to, without its two passes.
What would be retained with the whole message is what is, with the last definition that the message
has of each id in the place of an earlier one, or behind (`replaced`); and the message is merged
exactly if that has a place for each id and makes a message no longer than it may be.

The two passes are different code.  The check leaves out every definition that a later one
replaces, and looks each id up among those retained before; the other pass retains every definition
in turn.  That they agree is `retainAll_of_check`; that the check never takes more from the length
than is in it, `checkTemplates_spec`.
-/
import FlowExport.Proofs.Wire.AggregationRun

namespace FlowExport.Aggregation

/-- **Merging a template message is all or nothing, and the last definition of an id wins**,
whatever the aggregation has been through.  Let `combined` be what is retained with the definitions
of the message.  The message is merged exactly if there are places for `combined` and it fits into
a message, and then it is `combined` that is retained, the old ids in their places and the new ones
behind in order of first appearance; data stays as it is.  A message that is refused leaves all as
it was.  Retaining never fails once the check has passed, and the check, though it subtracts, never
goes below zero. -/
theorem merge_template_exact {n m : Nat} (hm : Encoding.compact.headerLength ≤ m)
    {message : CompactMessage} (hk : message.kind = .template) (past : List Operation) :
    let a := (empty n m).run past
    let combined := replaced (·.template) (message.sets.map TemplateSlot.ofSet) a.templates
    let check := checkTemplates a.templates message.sets (a.maxTemplates - a.templates.length)
      a.templateMessageLength
    ((a.merge message).1 = .ok 0 ↔ combined.length ≤ n ∧ lengthWith combined ≤ m) ∧
    (∀ count a', a.merge message = (.ok count, a') →
      count = 0 ∧ a'.templates = combined ∧ a'.data = a.data ∧
      a'.templates.map (·.template) = a.templates.map (·.template)
        ++ ((message.sets.map (·.template)).filter
          (· ∉ a.templates.map (·.template))).eraseDups) ∧
    (∀ e a', a.merge message = (.error e, a') → a' = a) ∧
    (∀ length, check = .ok length → (a.retainAll message.sets).1 = .ok ()) ∧
    checkTemplatesExact a.templates message.sets (a.maxTemplates - a.templates.length)
      a.templateMessageLength = some check := by
  intro a combined check
  have hs : a.Settled n m := (settled_empty n hm).run past
  have ht := hs.inv.templates
  have hcombined : placed message.sets a.templates = combined := collectAll_eq_replaced _ ht.nodup
  obtain ⟨hnever, -, -⟩ := checkTemplates_spec ht message.sets
  have hretain : ∀ length, check = .ok length → (a.retainAll message.sets).1 = .ok () := by
    intro length hpass
    rw [retainAll_of_check ht hpass]
  have hcases := merge_template_cases ht hk
  rw [hcombined, hs.maxTemplates, hs.maxMessage] at hcases
  rcases hcases with ⟨hplaces, hlength, he⟩ | ⟨hnot, e, he⟩
  · rw [he]
    refine ⟨⟨fun _ => ⟨hplaces, hlength⟩, fun _ => rfl⟩, ?_, ?_, hretain, hnever⟩
    · intro count a' hok
      obtain ⟨hcount, rfl⟩ := Prod.mk.inj hok
      refine ⟨(Except.ok.inj hcount).symm, rfl, rfl, ?_⟩
      rw [keys_replaced, List.map_map]
      rfl
    · intro e a' herr
      simp at herr
  · rw [he]
    refine ⟨⟨?_, fun hfit => absurd hfit hnot⟩, ?_, ?_, hretain, hnever⟩
    · intro hok
      simp at hok
    · intro count a' hok
      simp at hok
    · intro e' a' herr
      exact (Prod.mk.inj herr).2.symm

/-- Two definitions of one id: a field of the public registry, and then none at all. -/
def twoDefinitions : List Frame :=
  [⟨(0, 1), [0, 1, 0, 8]⟩, ⟨(0, 0), []⟩]

/-- Of two definitions of one id the last is retained, in the only place there is. -/
theorem merge_template_exact_twoDefinitions :
    Encoding.compact.headerLength ≤ 9 ∧ ∃ message : CompactMessage,
      CompactMessage.parse (({} : Exporter).message .compact .template 0
        (twoDefinitions.flatMap Frame.encode)) = .ok message ∧
      message.kind = .template ∧
      ∃ a', (empty 1 9).merge message = (.ok 0, a') ∧ a'.templates = [⟨256, 0, []⟩] := by
  have hcheck : ∀ f ∈ twoDefinitions, (CompactSet.ofFrame f).check .template = .ok () := by decide
  have hlength : Encoding.compact.headerLength + (twoDefinitions.flatMap Frame.encode).length
      ≤ maxLength := by decide
  obtain ⟨message, hparse, hk, hsets⟩ : ∃ message : CompactMessage,
      CompactMessage.parse (({} : Exporter).message .compact .template 0
        (twoDefinitions.flatMap Frame.encode)) = .ok message ∧
      message.kind = .template ∧ message.sets = twoDefinitions.map CompactSet.ofFrame :=
    ⟨_, CompactMessage.parse_message {} .template 0 hlength hcheck, rfl,
      CompactMessage.sets_mk _ (Frame.length_le_of_flatMap hlength)⟩
  have hm : Encoding.compact.headerLength ≤ 9 := by decide
  obtain ⟨hiff, hok, -⟩ := merge_template_exact (n := 1) hm hk []
  rw [hsets] at hiff hok
  have hmerged := hiff.mpr (by decide)
  obtain ⟨-, htemplates, -⟩ := hok 0 _ (Prod.ext hmerged rfl)
  exact ⟨hm, message, hparse, hk, _, Prod.ext hmerged rfl, htemplates.trans (by decide)⟩

end FlowExport.Aggregation
