import HarborBeacon.FamilyMemory
import HarborBeacon.FamilyTimeline

/-!
The listing of a family's memory: the vision events with the corrections of the family, of which a
filter keeps some.
-/

namespace HarborBeacon.FamilyMemoryViews

open FamilyMemory FamilyTimeline Json Json.Value Results VisionEvents

structure FamilyMemoryEventView where
  event : FamilyTimelineEvent
  overlay : FamilyMemoryOverlay
deriving DecidableEq

structure FamilyMemoryEventFilter where
  includeHidden : Bool := false
  favoritesOnly : Bool := false
  hiddenOnly : Bool := false
  correctedOnly : Bool := false
  limit : Nat := 50
deriving DecidableEq

def corrected (overlay : FamilyMemoryOverlay) : Bool :=
  overlay.correctedSummary.isSome || overlay.correctedLabels.isSome

def overlayValue (overlay : FamilyMemoryOverlay) : Value :=
  structObj
    [("event_id", some (string overlay.eventId)),
     ("confirmed_useful", some (.bool overlay.confirmedUseful)),
     ("favorite", some (.bool overlay.favorite)),
     ("hidden", some (.bool overlay.hidden)),
     ("corrected_summary", overlay.correctedSummary.map string),
     ("corrected_labels", overlay.correctedLabels.map ofStrings),
     ("corrected_at", overlay.correctedAt.map string),
     ("updated_at", overlay.updatedAt.map string),
     ("feedback_count", some (countValue overlay.feedbackCount))]

def FamilyMemoryEventView.toValue (view : FamilyMemoryEventView) : Value :=
  obj (view.event.fields ++ [("overlay", overlayValue view.overlay)])

def familyTimelineEventMatchesQuery (event : FamilyTimelineEvent)
    (options : FamilyTimelineQueryOptions) : Bool :=
  options.keepsCamera event.cameraId && options.keepsLabel event.labels event.eventType

def overlayFor (overlays : Table FamilyMemoryOverlay) (stored : StoredLocalVisionEvent) :
    FamilyMemoryOverlay :=
  (overlays.lookup stored.event.eventId).getD (newOverlay stored.event.eventId)

def viewOf (overlays : Table FamilyMemoryOverlay) (stored : StoredLocalVisionEvent) :
    FamilyMemoryEventView :=
  let overlay := overlayFor overlays stored
  { event := familyTimelineEvent (applyFamilyMemoryOverlayToEvent stored (some overlay))
    overlay := overlay }

def buildView (overlays : Table FamilyMemoryOverlay) (filter : FamilyMemoryEventFilter)
    (options : FamilyTimelineQueryOptions) (stored : StoredLocalVisionEvent) :
    Option FamilyMemoryEventView :=
  let overlay := overlayFor overlays stored
  if filter.hiddenOnly && !overlay.hidden then none
  else if !filter.includeHidden && overlay.hidden then none
  else if filter.favoritesOnly && !overlay.favorite then none
  else if filter.correctedOnly && !corrected overlay then none
  else
    let view := viewOf overlays stored
    if !familyTimelineEventMatchesQuery view.event options then none else some view

def FamilyMemoryEventFilter.clampedLimit (filter : FamilyMemoryEventFilter) : Nat :=
  min (max filter.limit 1) 100

def buildFamilyMemoryEventViews (events : List StoredLocalVisionEvent)
    (overlays : Table FamilyMemoryOverlay) (filter : FamilyMemoryEventFilter)
    (options : FamilyTimelineQueryOptions) : Except String (List FamilyMemoryEventView) := do
  let views := (events.filterMap (buildView overlays filter options)).take filter.clampedLimit
  inspect (array (views.map FamilyMemoryEventView.toValue))
  return views

/-- What a filter asks for. Only the hidden events, or only the others unless hidden ones are
included, and in either case the favourites and the corrected ones if these are asked for. -/
structure Selects (filter : FamilyMemoryEventFilter) (overlay : FamilyMemoryOverlay) : Prop where
  hidden : if filter.hiddenOnly then overlay.hidden = true
    else filter.includeHidden = true ∨ overlay.hidden = false
  favorite : filter.favoritesOnly = true → overlay.favorite = true
  corrected : filter.correctedOnly = true → corrected overlay = true

instance (filter : FamilyMemoryEventFilter) (overlay : FamilyMemoryOverlay) :
    Decidable (Selects filter overlay) :=
  decidable_of_iff
    ((if filter.hiddenOnly then overlay.hidden = true
        else filter.includeHidden = true ∨ overlay.hidden = false) ∧
      (filter.favoritesOnly = true → overlay.favorite = true) ∧
      (filter.correctedOnly = true → corrected overlay = true))
    ⟨fun h => ⟨h.1, h.2.1, h.2.2⟩, fun h => ⟨h.hidden, h.favorite, h.corrected⟩⟩

/-- The event is asked for: its overlay by the filter, and the corrected event by the query. -/
def AskedFor (overlays : Table FamilyMemoryOverlay) (filter : FamilyMemoryEventFilter)
    (options : FamilyTimelineQueryOptions) (stored : StoredLocalVisionEvent) : Prop :=
  Selects filter (overlayFor overlays stored) ∧
    familyTimelineEventMatchesQuery (viewOf overlays stored).event options = true

instance (overlays : Table FamilyMemoryOverlay) (filter : FamilyMemoryEventFilter)
    (options : FamilyTimelineQueryOptions) (stored : StoredLocalVisionEvent) :
    Decidable (AskedFor overlays filter options stored) :=
  inferInstanceAs (Decidable (_ ∧ _))

def askedViews (events : List StoredLocalVisionEvent) (overlays : Table FamilyMemoryOverlay)
    (filter : FamilyMemoryEventFilter) (options : FamilyTimelineQueryOptions) :
    List FamilyMemoryEventView :=
  ((events.filter fun stored => AskedFor overlays filter options stored).map
    (viewOf overlays)).take filter.clampedLimit

def Contradictory (filter : FamilyMemoryEventFilter) : Prop :=
  filter.hiddenOnly = true ∧ filter.includeHidden = false

instance (filter : FamilyMemoryEventFilter) : Decidable (Contradictory filter) :=
  inferInstanceAs (Decidable (_ ∧ _))

variable {filter : FamilyMemoryEventFilter} {overlays : Table FamilyMemoryOverlay}
  {options : FamilyTimelineQueryOptions}

theorem buildView_of_contradictory (h : Contradictory filter) (stored : StoredLocalVisionEvent) :
    buildView overlays filter options stored = none := by
  obtain ⟨honly, hinclude⟩ := h
  rcases hhidden : (overlayFor overlays stored).hidden with _ | _ <;>
    simp [buildView, honly, hinclude, hhidden]

theorem selects_iff (h : ¬ Contradictory filter) (overlay : FamilyMemoryOverlay) :
    Selects filter overlay ↔
      ¬ (filter.hiddenOnly && !overlay.hidden) = true ∧
      ¬ (!filter.includeHidden && overlay.hidden) = true ∧
      ¬ (filter.favoritesOnly && !overlay.favorite) = true ∧
      ¬ (filter.correctedOnly && !corrected overlay) = true := by
  have hhidden : (if filter.hiddenOnly then overlay.hidden = true
      else filter.includeHidden = true ∨ overlay.hidden = false) ↔
      ¬ (filter.hiddenOnly && !overlay.hidden) = true ∧
      ¬ (!filter.includeHidden && overlay.hidden) = true := by
    rcases honly : filter.hiddenOnly with _ | _ <;>
      rcases hinclude : filter.includeHidden with _ | _ <;>
      rcases overlay.hidden with _ | _ <;> simp [Contradictory, honly, hinclude] at h ⊢
  have hflag : ∀ asked held : Bool, ¬ (asked && !held) = true ↔ (asked = true → held = true) := by
    decide
  rw [hflag filter.favoritesOnly, hflag filter.correctedOnly, ← and_assoc, ← hhidden]
  exact ⟨fun h => ⟨h.hidden, h.favorite, h.corrected⟩, fun h => ⟨h.1, h.2.1, h.2.2⟩⟩

theorem buildView_of_consistent (h : ¬ Contradictory filter) (stored : StoredLocalVisionEvent) :
    buildView overlays filter options stored =
      if AskedFor overlays filter options stored then some (viewOf overlays stored) else none := by
  have hselects := selects_iff h (overlayFor overlays stored)
  rw [buildView]
  split
  · rename_i hhidden
    rw [if_neg fun hasked => (hselects.mp hasked.1).1 hhidden]
  split
  · rename_i hshown
    rw [if_neg fun hasked => (hselects.mp hasked.1).2.1 hshown]
  split
  · rename_i hfavorite
    rw [if_neg fun hasked => (hselects.mp hasked.1).2.2.1 hfavorite]
  split
  · rename_i hcorrected
    rw [if_neg fun hasked => (hselects.mp hasked.1).2.2.2 hcorrected]
  rename_i hhidden hshown hfavorite hcorrected
  have hselected := hselects.mpr ⟨hhidden, hshown, hfavorite, hcorrected⟩
  rcases hquery : familyTimelineEventMatchesQuery (viewOf overlays stored).event options
    with _ | _
  · have hnot : ¬ AskedFor overlays filter options stored := fun hasked =>
      Bool.false_ne_true (hquery.symm.trans hasked.2)
    simp [hnot, hquery]
  · have hasked : AskedFor overlays filter options stored := ⟨hselected, hquery⟩
    simp [hasked, hquery]

theorem filterMap_ite_some {α β : Type} (p : α → Prop) [DecidablePred p] (f : α → β)
    (items : List α) :
    items.filterMap (fun item => if p item then some (f item) else none) =
      (items.filter fun item => p item).map f := by
  induction items with
  | nil => rfl
  | cons item items ih =>
      rw [List.filterMap_cons, List.filter_cons, ih]
      rcases Decidable.em (p item) with hitem | hitem
      · simp [hitem]
      · simp [hitem]

theorem one_le_clampedLimit (filter : FamilyMemoryEventFilter) : 1 ≤ filter.clampedLimit := by
  rw [FamilyMemoryEventFilter.clampedLimit]
  omega

theorem askedViews_eq_nil_iff (events : List StoredLocalVisionEvent)
    (overlays : Table FamilyMemoryOverlay) (filter : FamilyMemoryEventFilter)
    (options : FamilyTimelineQueryOptions) :
    askedViews events overlays filter options = [] ↔
      ∀ stored ∈ events, ¬ AskedFor overlays filter options stored := by
  have hlimit := one_le_clampedLimit filter
  rw [askedViews, List.take_eq_nil_iff, or_iff_right (by omega), List.map_eq_nil_iff,
    List.filter_eq_nil_iff]
  simp

/-- A listing that succeeds shows what was asked for, unless the filter contradicts itself about
hidden events while there are hidden ones to show: it shows nothing then. -/
theorem listing_shows_iff (events : List StoredLocalVisionEvent)
    (overlays : Table FamilyMemoryOverlay) (filter : FamilyMemoryEventFilter)
    (options : FamilyTimelineQueryOptions) (views : List FamilyMemoryEventView)
    (hviews : buildFamilyMemoryEventViews events overlays filter options = .ok views) :
    views = askedViews events overlays filter options ↔
      (Contradictory filter → ∀ stored ∈ events, ¬ AskedFor overlays filter options stored) := by
  obtain ⟨-, -, hviews⟩ := bind_eq_ok hviews
  obtain rfl := Except.ok.inj hviews
  rcases Decidable.em (Contradictory filter) with hcontradictory | hconsistent
  · have hnone : events.filterMap (buildView overlays filter options) = [] :=
      List.filterMap_eq_nil_iff.mpr fun stored _ => buildView_of_contradictory hcontradictory stored
    rw [hnone, List.take_nil, eq_comm, askedViews_eq_nil_iff]
    exact ⟨fun h _ => h, fun h => h hcontradictory⟩
  · have hviews : buildView overlays filter options = fun stored =>
        if AskedFor overlays filter options stored then some (viewOf overlays stored) else none :=
      funext fun stored => buildView_of_consistent hconsistent stored
    refine iff_of_true ?_ fun h => absurd h hconsistent
    rw [hviews, filterMap_ite_some, askedViews]

def hideRecord (eventId : String) : FamilyMemoryFeedbackRecord where
  feedbackId := "family-memory-1"
  eventId := eventId
  action := .hide
  createdAt := "1700000000"
  source := "admin"
  correctedSummary := none
  correctedLabels := none
  note := none
  metadataOnly := true
  secretScan := "clean"

theorem listing_shows_hidden_visit :
    ∃ views, buildFamilyMemoryEventViews [doorVisit "event-1" "1700000000"]
        (buildFamilyMemoryOverlays [hideRecord "event-1"])
        { hiddenOnly := true, includeHidden := true } {} = .ok views ∧
      views = askedViews [doorVisit "event-1" "1700000000"]
        (buildFamilyMemoryOverlays [hideRecord "event-1"])
        { hiddenOnly := true, includeHidden := true } {} := by
  have hok : (buildFamilyMemoryEventViews [doorVisit "event-1" "1700000000"]
      (buildFamilyMemoryOverlays [hideRecord "event-1"])
      { hiddenOnly := true, includeHidden := true } {}).isOk = true := by decide +kernel
  rcases hviews : buildFamilyMemoryEventViews [doorVisit "event-1" "1700000000"]
    (buildFamilyMemoryOverlays [hideRecord "event-1"])
    { hiddenOnly := true, includeHidden := true } {} with error | views
  · rw [hviews] at hok
    exact absurd hok Bool.false_ne_true
  · exact ⟨views, rfl, (listing_shows_iff _ _ _ _ views hviews).mpr
      fun h => absurd h (by decide)⟩

/-- Asked for the hidden events only, the listing shows none of them. -/
theorem listing_loses_hidden_visit :
    ∃ views, buildFamilyMemoryEventViews [doorVisit "event-1" "1700000000"]
        (buildFamilyMemoryOverlays [hideRecord "event-1"]) { hiddenOnly := true } {} = .ok views ∧
      views = [] ∧
      (askedViews [doorVisit "event-1" "1700000000"]
        (buildFamilyMemoryOverlays [hideRecord "event-1"]) { hiddenOnly := true } {}).map
          (fun view => view.event.eventId) = ["event-1"] :=
  ⟨[], by decide +kernel, rfl, by decide +kernel⟩

end HarborBeacon.FamilyMemoryViews
