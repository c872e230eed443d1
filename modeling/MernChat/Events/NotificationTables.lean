import Mathlib.Data.List.Perm.Basic
import MernChat.Events.NotificationConsumer
import MernChat.Library.Table

/-!
# The tables of the consumers

However the transactions of the consumers interleave, and whichever of them are rolled back, the
two tables hold one row each for the events processed. A marker inserted keeps every other
transaction from inserting it, so that no notification is found there before its marker is.

## Main definitions

* `ConsumerState.Consistent`: the invariant of the tables
* `ConsumerState.SameTables`: two states with the same rows, up to generated values

## Main results

* `ConsumerState.Consistent.step`
* `ConsumerState.Consistent.nodup_messageId`: a message has at most one notification
* `ConsumerState.Consistent.marker_iff`, `ConsumerState.Consistent.notification_iff`: an event has
  its marker, and its notification, when it was processed
* `ConsumerState.Consistent.sameTables`: the tables are those of the set of events processed
-/

namespace MernChat

open Library

variable {consumerName : JsString} {s s' : ConsumerState}

/-- Events that are told apart by their ids, and by their messages. -/
structure UniqueEvents (D : MessageCreatedEvent → Prop) : Prop where
  eventId : ∀ e e', D e → D e' → Uuid.parse e.eventId = Uuid.parse e'.eventId → e = e'
  messageId : ∀ e e', D e → D e' →
    Uuid.parse e.data.messageId = Uuid.parse e'.data.messageId → e = e'

/-- The rows that an open transaction has inserted. -/
def OpenTransaction (consumerName : JsString) (markers : List ProcessedEventRow)
    (notifications : List NotificationRow) : ConsumerPhase → Prop
  | .marked _ event => (∃ row, markers = [row] ∧ MarkerOf consumerName event row) ∧
    notifications = []
  | .notified event => (∃ row, markers = [row] ∧ MarkerOf consumerName event row) ∧
    ∃ row, notifications = [row] ∧ NotificationOf event row
  | _ => markers = [] ∧ notifications = []

/-- **The invariant of the consumers' tables**, for events that satisfy `D`: the two tables hold one
row each for the events processed, in the same order, and no event has the marker of more than
one transaction. -/
structure ConsumerState.Consistent (consumerName : JsString) (D : MessageCreatedEvent → Prop)
    (s : ConsumerState) : Prop where
  event : ∀ k e, (s.phases k).event = some e → D e
  processed : ∀ e ∈ s.processed, D e
  nodup : s.processed.Nodup
  markers : List.Forall₂ (MarkerOf consumerName) s.processed s.processed_events
  notifications : List.Forall₂ NotificationOf s.processed s.notifications
  openTransaction : ∀ k, OpenTransaction consumerName (openRows k s.openProcessed)
    (openRows k s.openNotifications) (s.phases k)
  unmarked : ∀ k e, (s.phases k).marker = some e → e ∉ s.processed
  exclusive : ∀ k k' e, (s.phases k).marker = some e → (s.phases k').marker = some e → k = k'

theorem openRows_append {α : Type} (k j : Nat) (rows : List (Nat × α)) (a : α) :
    openRows k (rows ++ [(j, a)]) = openRows k rows ++ if j = k then [a] else [] := by
  unfold openRows
  rw [List.filter_append, List.map_append]
  by_cases h : j = k <;> simp [h]

theorem openRows_filter {α : Type} (k j : Nat) (rows : List (Nat × α)) :
    openRows k (rows.filter fun r => r.1 != j) = if j = k then [] else openRows k rows := by
  unfold openRows
  rw [List.filter_filter]
  split_ifs with h
  · subst h
    rw [List.map_eq_nil_iff, List.filter_eq_nil_iff]
    intro r _
    simp
  · congr 1
    apply List.filter_congr
    intro r _
    by_cases hr : r.1 = k
    · simp [hr, Ne.symm h]
    · simp [hr]

theorem mem_openRows {α : Type} {k : Nat} {rows : List (Nat × α)} {a : α} :
    a ∈ openRows k rows ↔ (k, a) ∈ rows := by
  unfold openRows
  simp only [List.mem_map, List.mem_filter, beq_iff_eq]
  constructor
  · rintro ⟨⟨j, b⟩, ⟨hmem, rfl⟩, rfl⟩
    exact hmem
  · intro h
    exact ⟨(k, a), ⟨h, rfl⟩, rfl⟩

namespace ConsumerState.Consistent

variable {D D' : MessageCreatedEvent → Prop}

theorem mono (h : s.Consistent consumerName D) (hD : ∀ e, D e → D' e) :
    s.Consistent consumerName D' where
  event k e he := hD e (h.event k e he)
  processed e he := hD e (h.processed e he)
  nodup := h.nodup
  markers := h.markers
  notifications := h.notifications
  openTransaction := h.openTransaction
  unmarked := h.unmarked
  exclusive := h.exclusive

/-- A step of consumer `k` within its transaction: it changes its own phase, and its own open
rows. -/
theorem update (h : s.Consistent consumerName D) {k : Nat} {p : ConsumerPhase}
    {openProcessed : List (Nat × ProcessedEventRow)}
    {openNotifications : List (Nat × NotificationRow)} (hevent : ∀ e, p.event = some e → D e)
    (hprocessed : ∀ j, j ≠ k → openRows j openProcessed = openRows j s.openProcessed)
    (hnotifications : ∀ j, j ≠ k → openRows j openNotifications = openRows j s.openNotifications)
    (hopen : OpenTransaction consumerName (openRows k openProcessed)
      (openRows k openNotifications) p)
    (hmarker : ∀ e, p.marker = some e →
      e ∉ s.processed ∧ ∀ j, (s.phases j).marker = some e → j = k) :
    ({ s.setPhase k p with openProcessed, openNotifications } : ConsumerState).Consistent
      consumerName D where
  event j e he := by
    simp only [setPhase, Function.update_apply] at he
    split_ifs at he with hj
    · exact hevent e he
    · exact h.event j e he
  processed := h.processed
  nodup := h.nodup
  markers := h.markers
  notifications := h.notifications
  openTransaction j := by
    simp only [setPhase, Function.update_apply]
    split_ifs with hj
    · rw [hj]
      exact hopen
    · rw [hprocessed j hj, hnotifications j hj]
      exact h.openTransaction j
  unmarked j e he := by
    simp only [setPhase, Function.update_apply] at he
    split_ifs at he with hj
    · exact (hmarker e he).1
    · exact h.unmarked j e he
  exclusive i j e hi hj := by
    simp only [setPhase, Function.update_apply] at hi hj
    split_ifs at hi hj with hik hjk hjk
    · rw [hik, hjk]
    · rw [hik, (hmarker e hi).2 j hj]
    · rw [hjk, (hmarker e hj).2 i hi]
    · exact h.exclusive i j e hi hj

/-- The end of a transaction that leaves nothing behind. -/
theorem close (h : s.Consistent consumerName D) (k : Nat) :
    (s.close k).Consistent consumerName D := by
  apply h.update
  · intro e he
    cases he
  · intro j hj
    rw [openRows_filter, if_neg (Ne.symm hj)]
  · intro j hj
    rw [openRows_filter, if_neg (Ne.symm hj)]
  · rw [openRows_filter, openRows_filter, if_pos rfl, if_pos rfl]
    exact ⟨rfl, rfl⟩
  · intro e he
    cases he

/-- The rows of an event that no transaction has the marker of become visible. -/
theorem append (h : s.Consistent consumerName D) {e : MessageCreatedEvent} (hD : D e)
    {marker : ProcessedEventRow} {row : NotificationRow} (hm : MarkerOf consumerName e marker)
    (hn : NotificationOf e row) (hnew : e ∉ s.processed)
    (hfree : ∀ k, (s.phases k).marker ≠ some e) :
    ({ s with
      processed_events := s.processed_events ++ [marker]
      notifications := s.notifications ++ [row]
      processed := s.processed ++ [e] } : ConsumerState).Consistent consumerName D where
  event := h.event
  processed e' he' := by
    rcases List.mem_append.mp he' with he' | he'
    · exact h.processed e' he'
    · rw [List.mem_singleton.mp he']
      exact hD
  nodup := by
    rw [List.nodup_append]
    refine ⟨h.nodup, List.nodup_singleton e, ?_⟩
    intro a ha b hb hab
    obtain rfl := List.mem_singleton.mp hb
    exact hnew (hab ▸ ha)
  markers := List.rel_append h.markers (.cons hm .nil)
  notifications := List.rel_append h.notifications (.cons hn .nil)
  openTransaction := h.openTransaction
  unmarked k e' he' := by
    intro hmem
    rcases List.mem_append.mp hmem with hmem | hmem
    · exact h.unmarked k e' he' hmem
    · rw [List.mem_singleton.mp hmem] at he'
      exact hfree k he'
  exclusive := h.exclusive

/-- A transaction that has the marker of an event has inserted its row. -/
theorem exists_marker (h : s.Consistent consumerName D) {k : Nat} {e : MessageCreatedEvent}
    (he : (s.phases k).marker = some e) : ∃ row, openRows k s.openProcessed = [row] ∧
      MarkerOf consumerName e row := by
  have hopen := h.openTransaction k
  cases hp : s.phases k with
  | marked startedAt event =>
    rw [hp] at he hopen
    obtain rfl := Option.some.inj he
    exact hopen.1
  | notified event =>
    rw [hp] at he hopen
    obtain rfl := Option.some.inj he
    exact hopen.1
  | _ =>
    rw [hp] at he
    cases he

/-- A marker inserted is that of an event not processed, and of no other transaction. -/
theorem marker_new (h : s.Consistent consumerName D) {k : Nat} {e : MessageCreatedEvent}
    {row : ProcessedEventRow} (hrow : MarkerOf consumerName e row)
    (hheld : ∀ r ∈ s.openProcessed, r.1 ≠ k → r.2.key ≠ row.key)
    (hnew : ∀ r ∈ s.processed_events, r.key ≠ row.key) :
    e ∉ s.processed ∧ ∀ j, (s.phases j).marker = some e → j = k := by
  have hkey : ∀ r, MarkerOf consumerName e r → r.key = row.key := by
    intro r hr
    exact Prod.ext (Option.some.inj (hr.consumerName.symm.trans hrow.consumerName))
      (Option.some.inj (hr.eventId.symm.trans hrow.eventId))
  constructor
  · intro hmem
    obtain ⟨r, hr, hre⟩ := (exists_mem_of_forall₂ h.markers).1 e hmem
    exact hnew r hr (hkey r hre)
  · intro j hj
    by_contra hne
    obtain ⟨r, hopen, hre⟩ := h.exists_marker hj
    have hmem : (j, r) ∈ s.openProcessed := by
      rw [← mem_openRows, hopen]
      exact List.mem_singleton.mpr rfl
    exact hheld (j, r) hmem hne (hkey r hre)

/-- The notification of an event that is not processed is not there. -/
theorem notification_new (h : s.Consistent consumerName D) (hD : UniqueEvents D)
    {e : MessageCreatedEvent} (he : D e) (hnew : e ∉ s.processed) {row : NotificationRow}
    (hrow : NotificationOf e row) : ∀ r ∈ s.notifications, r.key ≠ row.key := by
  intro r hr hkey
  obtain ⟨e', he', hre⟩ := (exists_mem_of_forall₂ h.notifications).2 r hr
  have hmessage : r.messageId = row.messageId := congrArg (fun key => key.2.1) hkey
  have heq : e' = e := by
    apply hD.messageId e' e (h.processed e' he') he
    rw [hre.messageId, hrow.messageId, hmessage]
  exact hnew (heq ▸ he')

/-- **Every step keeps the invariant**, where the events delivered satisfy `D`. -/
theorem step (h : s.Consistent consumerName D) (hD : UniqueEvents D) {a : ConsumerAction}
    (hbegin : ∀ k now e, a = .begin k now e → D e) (hst : ConsumerStep consumerName s a s') :
    s'.Consistent consumerName D := by
  cases hst with
  | @begin k now event hp =>
    have hopen := h.openTransaction k
    rw [hp] at hopen
    apply h.update (p := .begun now event) _ (fun _ _ => rfl) (fun _ _ => rfl) hopen
    · intro e he
      cases he
    · intro e he
      obtain rfl := Option.some.inj he
      exact hbegin k now _ rfl
  | @duplicate k startedAt event hp =>
    have hopen := h.openTransaction k
    rw [hp] at hopen
    apply h.update (p := .duplicate event) _ (fun _ _ => rfl) (fun _ _ => rfl) hopen
    · intro e he
      cases he
    · intro e he
      exact h.event k e (by rw [hp]; exact he)
  | @marked k startedAt event row hp hrow hheld hnew =>
    have hopen := h.openTransaction k
    rw [hp] at hopen
    obtain ⟨hmarkers, hnotifications⟩ := hopen
    -- the row of `INSERT … ON CONFLICT` is there, neither committed nor open before
    apply h.update _ _ (fun _ _ => rfl)
    · rw [openRows_append, hmarkers, if_pos rfl]
      exact ⟨⟨row, rfl, hrow⟩, hnotifications⟩
    · intro e he
      obtain rfl := Option.some.inj he
      exact h.marker_new hrow hheld hnew
    · intro e he
      exact h.event k e (by rw [hp]; exact he)
    · intro j hj
      rw [openRows_append, if_neg (Ne.symm hj), List.append_nil]
  | @conflict k id startedAt event row hp hrow hthere =>
    -- the notification of an event is there only with its marker
    obtain ⟨r, hr, hkey⟩ := hthere
    have hnew := h.unmarked k event (by rw [hp]; rfl)
    have hevent := h.event k event (by rw [hp]; rfl)
    exact absurd hkey (h.notification_new hD hevent hnew hrow r hr)
  | @notified k id startedAt event row hp hrow =>
    have hopen := h.openTransaction k
    rw [hp] at hopen
    obtain ⟨hmarkers, hnotifications⟩ := hopen
    apply h.update _ (fun _ _ => rfl)
    · intro j hj
      rw [openRows_append, if_neg (Ne.symm hj), List.append_nil]
    · rw [openRows_append, hnotifications, if_pos rfl]
      exact ⟨hmarkers, row, rfl, hrow⟩
    · intro e he
      have hm : (s.phases k).marker = some e := by
        rw [hp]
        exact he
      exact ⟨h.unmarked k e hm, fun j hj => h.exclusive j k e hj hm⟩
    · intro e he
      exact h.event k e (by rw [hp]; exact he)
  | @commit k event hp =>
    have hopen := h.openTransaction k
    rw [hp] at hopen
    obtain ⟨⟨marker, hmarkers, hm⟩, row, hrows, hn⟩ := hopen
    have hmarker : (s.phases k).marker = some event := by
      rw [hp]
      rfl
    -- the two rows become visible together, and no other transaction has the marker
    rw [hmarkers, hrows]
    apply (h.close k).append (h.event k event (by rw [hp]; rfl)) hm hn (h.unmarked k event hmarker)
    intro j hj
    by_cases hjk : j = k
    · rw [hjk] at hj
      simp [ConsumerState.close, setPhase, ConsumerPhase.marker] at hj
    · have hj' : (s.phases j).marker = some event := by
        simpa [ConsumerState.close, setPhase, Function.update_of_ne hjk] using hj
      exact hjk (h.exclusive j k event hj' hmarker)
  | @rollback k => exact h.close k

theorem empty : ConsumerState.empty.Consistent consumerName D where
  event k e he := by cases he
  processed e he := by cases he
  nodup := List.nodup_nil
  markers := .nil
  notifications := .nil
  openTransaction k := ⟨rfl, rfl⟩
  unmarked k e he := by cases he
  exclusive i j e hi := by cases hi

/-! ## What the tables hold -/

/-- An event has its marker when it was processed. -/
theorem marker_iff (h : s.Consistent consumerName D) (hD : UniqueEvents D)
    {e : MessageCreatedEvent} (he : D e) :
    (∃ row ∈ s.processed_events, MarkerOf consumerName e row) ↔ e ∈ s.processed := by
  constructor
  · rintro ⟨row, hrow, hm⟩
    obtain ⟨e', he', hm'⟩ := (exists_mem_of_forall₂ h.markers).2 row hrow
    have heq : e' = e := by
      apply hD.eventId e' e (h.processed e' he') he
      rw [hm'.eventId, hm.eventId]
    exact heq ▸ he'
  · exact (exists_mem_of_forall₂ h.markers).1 e

/-- The message of an event has a notification when the event was processed. -/
theorem notification_iff (h : s.Consistent consumerName D) (hD : UniqueEvents D)
    {e : MessageCreatedEvent} (he : D e) :
    (∃ row ∈ s.notifications, Uuid.parse e.data.messageId = some row.messageId) ↔
      e ∈ s.processed := by
  constructor
  · rintro ⟨row, hrow, hm⟩
    obtain ⟨e', he', hm'⟩ := (exists_mem_of_forall₂ h.notifications).2 row hrow
    have heq : e' = e := by
      apply hD.messageId e' e (h.processed e' he') he
      rw [hm'.messageId, hm]
    exact heq ▸ he'
  · intro hmem
    obtain ⟨row, hrow, hn⟩ := (exists_mem_of_forall₂ h.notifications).1 e hmem
    exact ⟨row, hrow, hn.messageId⟩

/-- **A message has at most one notification.** -/
theorem nodup_messageId (h : s.Consistent consumerName D) (hD : UniqueEvents D) :
    (s.notifications.map NotificationRow.messageId).Nodup := by
  have hmap : (s.notifications.map NotificationRow.messageId).map some =
      s.processed.map fun e => Uuid.parse e.data.messageId := by
    rw [List.map_map]
    symm
    exact map_eq_of_forall₂ (h.notifications.imp fun e row hn => hn.messageId)
  have hnodup : (s.processed.map fun e => Uuid.parse e.data.messageId).Nodup := by
    apply h.nodup.map_on
    intro e he e' he' heq
    exact hD.messageId e e' (h.processed e he) (h.processed e' he') heq
  rw [← hmap] at hnodup
  exact hnodup.of_map some

end ConsumerState.Consistent

/-- The rows of the tables, up to the generated ids and timestamps. -/
structure ConsumerState.SameTables (s t : ConsumerState) : Prop where
  processed_events : (s.processed_events.map ProcessedEventRow.key).Perm
    (t.processed_events.map ProcessedEventRow.key)
  notifications : (s.notifications.map NotificationRow.key).Perm
    (t.notifications.map NotificationRow.key)

/-- **The tables are those of the set of events processed**, in whatever order and however often
they were delivered. -/
theorem ConsumerState.Consistent.sameTables {t : ConsumerState}
    {D D' : MessageCreatedEvent → Prop} (hs : s.Consistent consumerName D)
    (ht : t.Consistent consumerName D') (h : ∀ e, e ∈ s.processed ↔ e ∈ t.processed) :
    s.SameTables t := by
  have hperm : s.processed.Perm t.processed :=
    (List.perm_ext_iff_of_nodup hs.nodup ht.nodup).mpr h
  have hmarkers : ∀ {u : ConsumerState} {E : MessageCreatedEvent → Prop},
      u.Consistent consumerName E →
      (u.processed_events.map ProcessedEventRow.key).map (fun key => (some key.1, some key.2)) =
        u.processed.map fun e => (pgVarchar 150 consumerName, Uuid.parse e.eventId) := by
    intro u E hu
    rw [List.map_map]
    symm
    exact map_eq_of_forall₂ (hu.markers.imp fun e row hm =>
      Prod.ext hm.consumerName hm.eventId)
  have hnotifications : ∀ {u : ConsumerState} {E : MessageCreatedEvent → Prop},
      u.Consistent consumerName E →
      (u.notifications.map NotificationRow.key).map
          (fun key => (some key.1, some key.2.1, key.2.2)) =
        u.processed.map fun e =>
          (Uuid.parse e.data.recipientId, Uuid.parse e.data.messageId, js "message") := by
    intro u E hu
    rw [List.map_map]
    symm
    exact map_eq_of_forall₂ (hu.notifications.imp fun e row hn =>
      Prod.ext hn.recipientId (Prod.ext hn.messageId hn.type.symm))
  constructor
  · have hinj : Function.Injective fun key : JsString × Uuid => (some key.1, some key.2) := by
      rintro ⟨a, b⟩ ⟨c, d⟩ hcd
      simpa using hcd
    rw [← List.map_perm_map_iff hinj, hmarkers hs, hmarkers ht]
    exact hperm.map _
  · have hinj : Function.Injective fun key : Uuid × Uuid × JsString =>
        (some key.1, some key.2.1, key.2.2) := by
      rintro ⟨a, b, c⟩ ⟨a', b', c'⟩ hcd
      simpa using hcd
    rw [← List.map_perm_map_iff hinj, hnotifications hs, hnotifications ht]
    exact hperm.map _

end MernChat
