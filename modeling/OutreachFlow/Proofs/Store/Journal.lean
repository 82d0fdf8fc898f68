import OutreachFlow.Proofs.Service.SavedFlows

/-! What there should be in a store, told by the calls alone. A journal has the flows that were created and not
deleted, by creation: a new flow comes last, a changed one stays where it is, a deleted one is struck out. A store
that makes all its files itself keeps to its journal, and all times in it come before the next reading of the clock. -/
namespace OutreachFlow

/-- A flow with the id under which it is kept. -/
structure Deposit where
  id : String
  flow : SavedFlow

namespace Deposit

def record (deposit : Deposit) : Json := deposit.flow.record deposit.id

def createdAt (deposit : Deposit) : String := deposit.flow.createdAt

def change (deposit : Deposit) (changes : Fields) (now : String) : Deposit :=
  ⟨deposit.id, deposit.flow.change changes now⟩

/-- An id leads to the file of a deposit. It need not be the id of the deposit, since it is taken as a path. -/
def IsUnder (deposit : Deposit) (id : String) : Prop :=
  (Directory.empty.locate (Store.path id)).toOption = some (.named (Store.path deposit.id))

instance (deposit : Deposit) (id : String) : Decidable (deposit.IsUnder id) :=
  inferInstanceAs (Decidable (_ = _))

/-- A log in which a deposit stands for the one under its id. -/
def replaceIn (deposit : Deposit) (log : List Deposit) : List Deposit :=
  log.map fun kept => if kept.id = deposit.id then deposit else kept

end Deposit

structure Journal where
  log : List Deposit
  ids : Supply
  clock : Supply

namespace Journal

/-- A flow as it is first kept. -/
def newDeposit (journal : Journal) (name description nodes edges : Json) : Deposit :=
  ⟨journal.ids.next, ⟨name, description, nodes, edges, journal.clock.next, journal.clock.next⟩⟩

/-- What is created or changed counts unless it is nested too deep to be written. -/
def after (limits : Limits) (journal : Journal) : Store.Call → Journal
  | .create name description nodes edges =>
    let deposit := journal.newDeposit name description nodes edges
    let log := journal.log.filter (·.id ≠ deposit.id) ++ [deposit]
    ⟨if limits.writing < deposit.record.depth then journal.log else log, journal.ids.advance, journal.clock.advance⟩
  | .update id changes =>
    match journal.log.find? (·.IsUnder id) with
    | none => journal
    | some kept =>
      let deposit := kept.change changes journal.clock.next
      ⟨if limits.writing < deposit.record.depth then journal.log else deposit.replaceIn journal.log,
        journal.ids, journal.clock.advance⟩
  | .delete id => { journal with log := journal.log.filter fun kept => ¬ kept.IsUnder id }
  | .get _ | .list => journal

def afterAll (limits : Limits) (journal : Journal) (calls : List Store.Call) : Journal :=
  calls.foldl (after limits) journal

/-- All records that there are, by creation. -/
def records (journal : Journal) : List Json := journal.log.map Deposit.record

end Journal

/-! Paths in a directory without folders -/

namespace Directory

variable {directory : Directory}

/-- No folder lies in the directory. -/
def IsFlat (directory : Directory) : Prop := ∀ place, directory.item? place = some .folder → place.names = []

/-- Paths lead to the same places in all directories without folders. -/
theorem IsFlat.walk_eq_ok (flat : directory.IsFlat) {place reached : Location} {steps : List String} :
    directory.walk place steps = .ok reached ↔ empty.walk place steps = .ok reached := by
  induction steps generalizing place with
  | nil => rfl
  | cons step rest ih =>
    by_cases root : place.names = []
    · simp only [walk, folder_of_root root]
      split
      · exact ih
      · split
        · rfl
        · exact ih
    · have nothing : empty.item? place = none := by simp [item?, root, empty]
      refine iff_of_false ?_ (by simp [walk, nothing])
      unfold walk
      split
      · rename_i folder
        exact absurd (flat place folder) root
      · simp
      · simp
      · simp

theorem IsFlat.locate_eq_ok (flat : directory.IsFlat) {path : String} {place : Location} :
    directory.locate path = .ok place ↔ empty.locate path = .ok place := by
  unfold locate
  split
  · rfl
  · exact flat.walk_eq_ok

end Directory

/-! Lists of deposits -/

namespace Deposit

variable {deposit : Deposit}

def item (deposit : Deposit) : Location × DirectoryItem :=
  (.named (Store.path deposit.id), .file deposit.record.pretty)

/-- A deposit whose file can be written, is its own and is read back. -/
structure IsSound (limit : Nat) (deposit : Deposit) : Prop where
  plain : Store.IsPlain deposit.id
  storable : deposit.record.Storable
  flat : deposit.record.depth ≤ limit

theorem IsSound.readText {limit reading : Nat} (sound : deposit.IsSound limit) (roomy : limit ≤ reading) :
    Store.readText reading deposit.record.pretty = .ok deposit.record :=
  Store.readText_pretty sound.storable (sound.flat.trans roomy)

theorem map_id_replaceIn (deposit : Deposit) (log : List Deposit) :
    (deposit.replaceIn log).map Deposit.id = log.map Deposit.id := by
  rw [replaceIn, List.map_map]
  refine List.map_congr_left fun kept _ => ?_
  by_cases same : kept.id = deposit.id <;> simp [same]

theorem mem_replaceIn {log : List Deposit} (present : deposit.id ∈ log.map Deposit.id) (kept : Deposit) :
    kept ∈ deposit.replaceIn log ↔ kept ∈ deposit :: log.filter (·.id ≠ deposit.id) := by
  simp only [replaceIn, List.mem_map, List.mem_cons, List.mem_filter, decide_eq_true_eq]
  constructor
  · rintro ⟨other, member, rfl⟩
    by_cases same : other.id = deposit.id <;> simp [same, member]
  · rintro (rfl | ⟨member, other⟩)
    · obtain ⟨old, member, same⟩ := List.mem_map.mp present
      exact ⟨old, member, if_pos same⟩
    · exact ⟨kept, member, if_neg other⟩

end Deposit

theorem rising_concat {times : List String} {now next : String} (rising : (times ++ [now]).Pairwise (· < ·))
    (later : now < next) : (times ++ [now, next]).Pairwise (· < ·) := by
  obtain ⟨before, _, earlier⟩ := List.pairwise_append.mp rising
  refine List.pairwise_append.mpr ⟨before, List.pairwise_pair.mpr later, fun time member => ?_⟩
  have less : time < now := earlier time member now (List.mem_singleton_self now)
  exact List.forall_mem_cons.mpr ⟨less, List.forall_mem_singleton.mpr (less.trans later)⟩

/-! What can be written -/

theorem Json.Storable.getD {changes : Fields} (storable : (Json.obj changes).Storable) {own : Json}
    (kept : own.Storable) (key : String) : ((changes.get? key).getD own).Storable := by
  cases found : changes.get? key with
  | none => exact kept
  | some value =>
    cases storable with
    | obj _ all => exact all _ (Service.FieldName.mem_of_get? found)

theorem Deposit.storable_change {deposit : Deposit} {changes : Fields} (kept : deposit.record.Storable)
    (storable : (Json.obj changes).Storable) (now : String) : (deposit.change changes now).record.Storable := by
  obtain ⟨name, description, nodes, edges⟩ := SavedFlow.storable_record.mp kept
  exact SavedFlow.storable_record.mpr ⟨storable.getD name _, storable.getD description _, storable.getD nodes _,
    storable.getD edges _⟩

namespace Store

/-- Everything that a call brings could have been read from a text. -/
def Call.IsStorable : Call → Prop
  | .create name description nodes edges =>
    name.Storable ∧ description.Storable ∧ nodes.Storable ∧ edges.Storable
  | .update _ changes => (Json.obj changes).Storable
  | .get _ | .delete _ | .list => True

/-! Stores with a journal -/

/-- The files of a store are those of a journal, and can be read as they can be written. -/
structure Keeps (store : Store) (journal : Journal) : Prop where
  ids : store.ids = journal.ids
  clock : store.clock = journal.clock
  roomy : store.limits.writing ≤ store.limits.reading
  drawn : ∀ count, IsPlain (journal.ids.text count)
  rising : StrictMono journal.clock.text
  files : ∀ entry, entry ∈ store.directory.items ↔ ∃ kept ∈ journal.log, kept.item = entry
  sound : ∀ kept ∈ journal.log, kept.IsSound store.limits.writing
  distinct : (journal.log.map Deposit.id).Nodup
  times : (journal.log.map Deposit.createdAt ++ [journal.clock.next]).Pairwise (· < ·)

namespace Keeps

variable {store : Store} {journal : Journal} {id : String} {kept : Deposit}

theorem empty (nothing : store.directory = .empty) (drawn : ∀ count, IsPlain (store.ids.text count))
    (rising : StrictMono store.clock.text) (roomy : store.limits.writing ≤ store.limits.reading) :
    store.Keeps ⟨[], store.ids, store.clock⟩ where
  ids := rfl
  clock := rfl
  roomy := roomy
  drawn := drawn
  rising := rising
  files := by simp [nothing, Directory.empty]
  sound := by simp
  distinct := .nil
  times := by simp

theorem later (keeps : store.Keeps journal) :
    (journal.log.map Deposit.createdAt ++ [journal.clock.next, journal.clock.advance.next]).Pairwise (· < ·) :=
  rising_concat keeps.times (keeps.rising (Nat.lt_succ_self _))

/-! Reading -/

theorem isFlat (keeps : store.Keeps journal) : store.directory.IsFlat := by
  intro place folder
  by_contra below
  obtain ⟨kept, _, same⟩ := (keeps.files _).mp ((Directory.item?_eq_some below).mp folder)
  exact absurd (congrArg Prod.snd same) (by simp [Deposit.item])

/-- An id is that of a deposit as a path. -/
theorem isUnder_iff (keeps : store.Keeps journal) :
    kept.IsUnder id ↔ store.directory.locate (path id) = .ok (.named (path kept.id)) := by
  rw [Deposit.IsUnder, toOption_eq_some, keeps.isFlat.locate_eq_ok]

theorem file?_of_mem (keeps : store.Keeps journal) (member : kept ∈ journal.log) (under : kept.IsUnder id) :
    store.file? id = .ok (some kept.item) := by
  have lies : store.directory.item? (.named (path kept.id)) = some (.file kept.record.pretty) :=
    Directory.item?_named.mpr ((keeps.files _).mpr ⟨kept, member, rfl⟩)
  rw [file?, Directory.find?, keeps.isUnder_iff.mp under]
  simp only [lies]
  rfl

theorem get?_of_mem (keeps : store.Keeps journal) (member : kept ∈ journal.log) (under : kept.IsUnder id) :
    store.get? id = .ok (some kept.record) := by
  have read : readItem store.limits.reading kept.item.2 = .ok kept.record :=
    readItem_eq_ok.mpr ⟨_, rfl, (keeps.sound kept member).readText keeps.roomy⟩
  rw [get?, keeps.file?_of_mem member under]
  simp only [bind, Except.bind, document?, read]
  rfl

/-- What lies under an id is a deposit. -/
theorem mem_of_file? (keeps : store.Keeps journal) {place : Location} {item : DirectoryItem}
    (there : store.file? id = .ok (some (place, item))) :
    ∃ kept ∈ journal.log, kept.item = (place, item) ∧ kept.IsUnder id := by
  obtain ⟨kept, member, same⟩ := (keeps.files _).mp (Directory.mem_of_file? there)
  refine ⟨kept, member, same, keeps.isUnder_iff.mpr ?_⟩
  rw [locate_of_file? there, show place = .named (path kept.id) from (congrArg Prod.fst same).symm]

/-- An id under which there is no deposit leads to no file. -/
theorem file?_of_absent (keeps : store.Keeps journal) (absent : ∀ kept ∈ journal.log, ¬ kept.IsUnder id) :
    store.file? id = .ok none ∨ ∃ fault, store.file? id = .error fault := by
  cases there : store.file? id with
  | error fault => exact .inr ⟨fault, rfl⟩
  | ok found =>
    cases found with
    | none => exact .inl rfl
    | some file =>
      obtain ⟨kept, member, _, under⟩ := keeps.mem_of_file? there
      exact absurd under (absent kept member)

/-! Writing -/

theorem write_eq (keeps : store.Keeps journal) {deposit : Deposit} (plain : IsPlain deposit.id) :
    store.directory.write (path deposit.id) deposit.record.pretty =
      .ok (store.directory.put deposit.item.1 deposit.item.2) := by
  refine Directory.write_eq_ok.mpr ⟨_, locate_path plain store.directory, ?_, ?_, rfl⟩ <;>
    · intro other
      obtain ⟨kept, _, same⟩ := (keeps.files _).mp (Directory.item?_named.mp other)
      exact absurd (congrArg Prod.snd same) (by simp [Deposit.item])

theorem write (keeps : store.Keeps journal) {deposit : Deposit} (sound : deposit.IsSound store.limits.writing) :
    store.write deposit.id deposit.record =
      .ok { store with directory := store.directory.put deposit.item.1 deposit.item.2 } := by
  rw [Store.write, if_neg (Nat.not_lt.mpr sound.flat), keeps.write_eq sound.plain]

theorem mem_remove (keeps : store.Keeps journal) (id : String) (entry : Location × DirectoryItem) :
    entry ∈ (store.directory.remove (.named (path id))).items ↔
      ∃ kept ∈ journal.log.filter (·.id ≠ id), kept.item = entry := by
  have apart : ∀ kept : Deposit, kept.item.1 = .named (path id) ↔ kept.id = id := fun _ => named_path_inj
  simp only [Directory.remove, List.mem_filter, keeps.files, decide_eq_true_eq]
  constructor
  · rintro ⟨⟨kept, member, rfl⟩, other⟩
    exact ⟨kept, ⟨member, mt (apart kept).mpr other⟩, rfl⟩
  · rintro ⟨kept, ⟨member, other⟩, rfl⟩
    exact ⟨⟨kept, member, rfl⟩, mt (apart kept).mp other⟩

theorem mem_put (keeps : store.Keeps journal) (deposit : Deposit) (entry : Location × DirectoryItem) :
    entry ∈ (store.directory.put deposit.item.1 deposit.item.2).items ↔
      ∃ kept ∈ deposit :: journal.log.filter (·.id ≠ deposit.id), kept.item = entry := by
  rw [List.exists_mem_cons_iff, ← keeps.mem_remove deposit.id entry, Directory.put, List.mem_cons, eq_comm]
  rfl

/-! Steps -/

/-- Reading the clock leaves everything where it is. -/
theorem tick (keeps : store.Keeps journal) :
    Keeps { store with clock := store.clock.advance } { journal with clock := journal.clock.advance } where
  ids := keeps.ids
  clock := by simp only [keeps.clock]
  roomy := keeps.roomy
  drawn := keeps.drawn
  rising := keeps.rising
  files := keeps.files
  sound := keeps.sound
  distinct := keeps.distinct
  times := keeps.later.sublist (by simp)

/-- Drawing an id does, too. -/
theorem draw (keeps : store.Keeps journal) :
    Keeps { store with ids := store.ids.advance } { journal with ids := journal.ids.advance } where
  ids := by simp only [keeps.ids]
  clock := keeps.clock
  roomy := keeps.roomy
  drawn := keeps.drawn
  rising := keeps.rising
  files := keeps.files
  sound := keeps.sound
  distinct := keeps.distinct
  times := keeps.times

/-- A new flow comes last, also under an id that was there before. -/
theorem append (keeps : store.Keeps journal) {deposit : Deposit} (sound : deposit.IsSound store.limits.writing)
    (now : deposit.createdAt = journal.clock.next) :
    Keeps { store with directory := store.directory.put deposit.item.1 deposit.item.2, clock := store.clock.advance }
      ⟨journal.log.filter (·.id ≠ deposit.id) ++ [deposit], journal.ids, journal.clock.advance⟩ where
  ids := keeps.ids
  clock := by simp only [keeps.clock]
  roomy := keeps.roomy
  drawn := keeps.drawn
  rising := keeps.rising
  files entry := by
    rw [keeps.mem_put deposit entry]
    simp only [List.mem_cons, List.mem_append, List.not_mem_nil, or_false, @or_comm (_ ∈ journal.log.filter _)]
  sound kept member := by
    rcases List.mem_append.mp member with old | new
    · exact keeps.sound kept (List.mem_filter.mp old).1
    · exact List.mem_singleton.mp new ▸ sound
  distinct := by
    rw [List.map_append, List.map_singleton, List.nodup_append_comm, List.singleton_append, List.nodup_cons]
    refine ⟨?_, keeps.distinct.sublist (List.filter_sublist.map _)⟩
    intro member
    obtain ⟨kept, inside, same⟩ := List.mem_map.mp member
    simp [same] at inside
  times := by
    have kept : ((journal.log.filter (·.id ≠ deposit.id)).map Deposit.createdAt).Sublist
        (journal.log.map Deposit.createdAt) := List.filter_sublist.map _
    rw [List.map_append, List.append_assoc, List.map_singleton, now]
    exact keeps.later.sublist (kept.append_right _)

/-- A changed flow stays where it is in the log. -/
theorem replace (keeps : store.Keeps journal) {deposit : Deposit} (sound : deposit.IsSound store.limits.writing)
    (member : kept ∈ journal.log) (sameId : deposit.id = kept.id) (sameTime : deposit.createdAt = kept.createdAt) :
    Keeps { store with directory := store.directory.put deposit.item.1 deposit.item.2 }
      { journal with log := deposit.replaceIn journal.log } where
  ids := keeps.ids
  clock := keeps.clock
  roomy := keeps.roomy
  drawn := keeps.drawn
  rising := keeps.rising
  files entry := by
    have present : deposit.id ∈ journal.log.map Deposit.id := sameId ▸ List.mem_map_of_mem member
    rw [keeps.mem_put deposit entry]
    simp only [Deposit.mem_replaceIn present]
  sound other inside := by
    have present : deposit.id ∈ journal.log.map Deposit.id := sameId ▸ List.mem_map_of_mem member
    rcases List.mem_cons.mp ((Deposit.mem_replaceIn present other).mp inside) with rfl | old
    · exact sound
    · exact keeps.sound other (List.mem_filter.mp old).1
  distinct := by
    rw [Deposit.map_id_replaceIn]
    exact keeps.distinct
  times := by
    have same : (deposit.replaceIn journal.log).map Deposit.createdAt = journal.log.map Deposit.createdAt := by
      rw [Deposit.replaceIn, List.map_map]
      refine List.map_congr_left fun other member' => ?_
      by_cases own : other.id = deposit.id
      · have whole : other = kept := List.inj_on_of_nodup_map keeps.distinct member' member (own.trans sameId)
        rw [Function.comp_apply, if_pos own, whole, sameTime]
      · simp [own]
    rw [same]
    exact keeps.times

theorem erase (keeps : store.Keeps journal) (id : String) :
    Keeps { store with directory := store.directory.remove (.named (path id)) }
      { journal with log := journal.log.filter (·.id ≠ id) } where
  ids := keeps.ids
  clock := keeps.clock
  roomy := keeps.roomy
  drawn := keeps.drawn
  rising := keeps.rising
  files := keeps.mem_remove id
  sound kept member := keeps.sound kept (List.mem_filter.mp member).1
  distinct := keeps.distinct.sublist (List.filter_sublist.map _)
  times := keeps.times.sublist ((List.filter_sublist.map _).append_right _)

theorem create (keeps : store.Keeps journal) {name description nodes edges : Json}
    (storable : Call.IsStorable (.create name description nodes edges)) :
    (store.create name description nodes edges).1.Keeps
      (journal.after store.limits (.create name description nodes edges)) := by
  have made : Json.obj (newRecord store.ids.next store.clock.next name description nodes edges) =
      (journal.newDeposit name description nodes edges).record := by
    rw [keeps.ids, keeps.clock]
    rfl
  have named : store.ids.next = (journal.newDeposit name description nodes edges).id := by
    rw [keeps.ids]
    rfl
  have drawn := keeps.tick.draw
  simp only [Journal.after]
  by_cases deep : store.limits.writing < (journal.newDeposit name description nodes edges).record.depth
  · rw [if_pos deep]
    simpa only [Store.create, made, Store.write, if_pos deep] using drawn
  · have sound : (journal.newDeposit name description nodes edges).IsSound store.limits.writing :=
      ⟨keeps.drawn _, SavedFlow.storable_record.mpr storable, Nat.not_lt.mp deep⟩
    have written := drawn.write sound
    rw [← named] at written
    rw [if_neg deep]
    simp only [Store.create, made, written]
    exact (keeps.append sound rfl).draw

theorem update (keeps : store.Keeps journal) {id : String} {changes : Fields}
    (storable : (Json.obj changes).Storable) :
    (store.update id changes).1.Keeps (journal.after store.limits (.update id changes)) := by
  cases under : journal.log.find? (·.IsUnder id) with
  | none =>
    have absent : ∀ kept ∈ journal.log, ¬ kept.IsUnder id := by simpa using under
    simp only [Journal.after, under]
    rcases keeps.file?_of_absent absent with there | ⟨fault, there⟩ <;>
      simpa [Store.update, get?, there, bind, Except.bind, pure, Except.pure] using keeps
  | some kept =>
    have member := List.mem_of_find?_eq_some under
    have got := keeps.get?_of_mem member (by simpa using List.find?_some under)
    have changed : (kept.flow.change changes store.clock.next).record kept.id =
        (kept.change changes journal.clock.next).record := by
      rw [keeps.clock]
      rfl
    simp only [Journal.after, under]
    by_cases deep : store.limits.writing < (kept.change changes journal.clock.next).record.depth
    · rw [if_pos deep, update_record got, changed, Store.write, if_pos deep]
      exact keeps.tick
    · have sound : (kept.change changes journal.clock.next).IsSound store.limits.writing :=
        ⟨(keeps.sound kept member).plain, Deposit.storable_change (keeps.sound kept member).storable storable _,
          Nat.not_lt.mp deep⟩
      have written := keeps.tick.write sound
      rw [if_neg deep, update_record got, changed]
      rw [show kept.id = (kept.change changes journal.clock.next).id from rfl, written]
      exact (keeps.replace sound member rfl rfl).tick

/-- One file is the place of one deposit. -/
theorem isUnder_unique (keeps : store.Keeps journal) {other : Deposit} (under : kept.IsUnder id) :
    other.IsUnder id ↔ other.id = kept.id := by
  rw [keeps.isUnder_iff, keeps.isUnder_iff.mp under, Except.ok.injEq, named_path_inj, eq_comm]

theorem delete (keeps : store.Keeps journal) (id : String) :
    (store.delete id).1.Keeps (journal.after store.limits (.delete id)) := by
  have struck {log : List Deposit} (same : journal.log.filter (fun kept => ¬ kept.IsUnder id) = log) :
      journal.after store.limits (.delete id) = { journal with log := log } := by rw [Journal.after, same]
  by_cases present : ∃ kept ∈ journal.log, kept.IsUnder id
  · obtain ⟨kept, member, under⟩ := present
    have rest : journal.log.filter (fun kept => ¬ kept.IsUnder id) = journal.log.filter (·.id ≠ kept.id) :=
      List.filter_congr fun other _ => by simp [keeps.isUnder_unique under]
    rw [struck rest]
    simp only [Store.delete, keeps.file?_of_mem member under]
    exact keeps.erase kept.id
  · have absent : ∀ kept ∈ journal.log, ¬ kept.IsUnder id := fun kept member under => present ⟨kept, member, under⟩
    rw [struck (List.filter_eq_self.mpr (by simpa using absent))]
    rcases keeps.file?_of_absent absent with there | ⟨fault, there⟩ <;>
      simpa only [Store.delete, there] using keeps

theorem perform (keeps : store.Keeps journal) {call : Call} (storable : call.IsStorable) :
    (store.perform call).1.Keeps (journal.after store.limits call) := by
  cases call with
  | create name description nodes edges => exact keeps.create storable
  | get id | list => exact keeps
  | update id changes => exact keeps.update storable
  | delete id => exact keeps.delete id

/-- A store keeps to its journal through any calls. -/
theorem performAll {calls : List Call} (keeps : store.Keeps journal) (storable : ∀ call ∈ calls, call.IsStorable) :
    (store.performAll calls).1.Keeps (journal.afterAll store.limits calls) := by
  induction calls generalizing store journal with
  | nil => exact keeps
  | cons call rest ih =>
    obtain ⟨first, others⟩ := List.forall_mem_cons.mp storable
    have done := ih (keeps.perform first) others
    rw [(SameSources.perform store call).limits] at done
    exact done

end Keeps

end Store

end OutreachFlow
