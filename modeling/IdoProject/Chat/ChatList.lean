import IdoProject.Chat.WellFormed
import Mathlib.Data.List.Induction
import Mathlib.Data.List.Nodup

/-!
# The chat list in memory and on disk

Three mechanisms keep the two copies in step: `loadChats` replaces the copy in
memory, `createNewChat` writes it to disk, and `deleteChat` edits both, the copy
on disk by id and the one in memory by object identity.
-/

namespace IdoProject
namespace Chat

open Java Store

namespace App

variable {toLowerCase : JString → JString}
variable {app next finish : App}
variable {event : Event}

/-- Ids in the live data, in order. -/
def listedIds (app : App) : List JInt :=
  app.viewModel.chats.map (·.id)

/-- Ids stored for the signed-in user, in order. -/
def storedIds (app : App) : List JInt :=
  (app.files.loadChats app.username).map (·.id)

/-- The two copies agree, and no id is in them twice. -/
structure Agree (app : App) : Prop where
  same : app.listedIds = app.storedIds
  distinct : app.listedIds.Nodup

/-- The chat that is deleted is the object in the live data, or its id is no
longer listed; a new chat is created while one of the two ends of the range of
an `int` is free. -/
def Current (app : App) : Event → Prop
  | .deleteChat chat =>
      (∃ listed ∈ app.viewModel.chats, listed.identity = chat.identity) ∨
        chat.id ∉ app.listedIds
  | .createNewChat =>
      Int32.maxValue ∉ app.listedIds ∨ Int32.minValue ∉ app.listedIds
  | _ => True

instance (app : App) : (event : Event) → Decidable (app.Current event)
  | .deleteChat _ => inferInstanceAs (Decidable (_ ∨ _ ∉ app.listedIds))
  | .createNewChat =>
      inferInstanceAs (Decidable (_ ∉ app.listedIds ∨ _ ∉ app.listedIds))
  | .saveSettings _ | .loadChats | .loadMessages _ | .sendMessage _ _
  | .deliver _ _ | .post _ | .endStream _
  | .runPosted => inferInstanceAs (Decidable True)

instance (app : App) : Decidable app.Agree :=
  decidable_of_iff (app.listedIds = app.storedIds ∧ app.listedIds.Nodup)
    ⟨fun both => ⟨both.1, both.2⟩, fun agree => ⟨agree.same, agree.distinct⟩⟩

/-- Only `createNewChat` adds an id to one of the copies, and only the id of the
new chat. -/
def NoReappearance
    (toLowerCase : JString → JString)
    (app : App)
    (event : Event) : Prop :=
  ∀ next, app.step toLowerCase event = some next →
    ∀ id, id ∈ next.listedIds ∨ id ∈ next.storedIds →
      (id ∈ app.listedIds ∧ id ∈ app.storedIds) ∨
        (event = .createNewChat ∧ id = maxId app.viewModel.chats + 1)

/-- What is known of the chat objects in every reachable state. -/
structure Catalogued (app : App) : Prop where
  listed : ∀ chat ∈ app.viewModel.chats, chat ∈ app.viewModel.exposed
  allocated : ∀ chat ∈ app.viewModel.exposed,
    chat.identity < app.viewModel.nextChat
  unique : ∀ first ∈ app.viewModel.exposed, ∀ second ∈ app.viewModel.exposed,
    first.identity = second.identity → first = second

section MaxId

/-- The largest id is 0 or one of the list, and no id is above it. -/
theorem maxId_spec (chats : List ChatObject) :
    0 ≤ maxId chats ∧
      (maxId chats = 0 ∨ maxId chats ∈ chats.map (·.id)) ∧
      ∀ chat ∈ chats, chat.id ≤ maxId chats := by
  unfold maxId
  induction chats using List.reverseRecOn with
  | nil => simp
  | append_singleton chats chat inductionHypothesis =>
      obtain ⟨nonneg, reached, above⟩ := inductionHypothesis
      rw [List.foldl_append]
      simp only [List.foldl_cons, List.foldl_nil, List.map_append,
        List.mem_append, List.map_cons, List.map_nil, List.mem_singleton]
      split
      case isTrue larger =>
        have ordered := Int32.le_of_lt larger
        refine ⟨Int32.le_trans nonneg ordered, Or.inr (Or.inr rfl), ?_⟩
        rintro other (old | rfl)
        · exact Int32.le_trans (above other old) ordered
        · exact Int32.le_refl _
      case isFalse notLarger =>
        refine ⟨nonneg, reached.imp_right Or.inl, ?_⟩
        rintro other (old | rfl)
        · exact above other old
        · exact Int32.not_lt.mp notLarger

/-- The new id is in the list only when it wraps around onto an id that is
there. -/
theorem newId_mem_iff (chats : List ChatObject) :
    maxId chats + 1 ∈ chats.map (·.id) ↔
      Int32.maxValue ∈ chats.map (·.id) ∧ Int32.minValue ∈ chats.map (·.id) := by
  obtain ⟨nonneg, reached, above⟩ := maxId_spec chats
  by_cases top : maxId chats = Int32.maxValue
  · have listed : Int32.maxValue ∈ chats.map (·.id) := by
      rw [top] at reached
      exact reached.resolve_left (by decide)
    rw [top, show Int32.maxValue + 1 = Int32.minValue by decide]
    exact ⟨fun wrapped => ⟨listed, wrapped⟩, fun both => both.2⟩
  · have below : (maxId chats).toInt < Int32.maxValue.toInt := by
      refine lt_of_le_of_ne (maxId chats).toInt_le fun equal => top ?_
      exact Int32.toInt_inj.mp equal
    have next : (maxId chats + 1).toInt = (maxId chats).toInt + 1 := by
      have nonneg := Int32.le_iff_toInt_le.mp nonneg
      rw [Int32.toInt_add, show (1 : Int32).toInt = 1 from rfl]
      rw [show Int32.maxValue.toInt = 2147483647 from rfl] at below
      rw [show (0 : Int32).toInt = 0 from rfl] at nonneg
      exact Int.bmod_eq_of_le (by omega) (by omega)
    have bound : ∀ id ∈ chats.map (·.id), id.toInt ≤ (maxId chats).toInt := by
      intro id present
      obtain ⟨chat, listed, rfl⟩ := List.mem_map.mp present
      exact Int32.le_iff_toInt_le.mp (above chat listed)
    constructor
    · intro present
      have := bound _ present
      omega
    · rintro ⟨present, _⟩
      have := bound _ present
      omega

end MaxId

section Catalogue

/-- The chat lists are as they were. -/
structure SameChats (app next : App) : Prop where
  chats : next.viewModel.chats = app.viewModel.chats
  exposed : next.viewModel.exposed = app.viewModel.exposed
  nextChat : next.viewModel.nextChat = app.viewModel.nextChat
  stored : next.files.loadChats next.username =
    app.files.loadChats app.username

/-- The runnable of a token leaves the chat lists alone. -/
theorem sameChats_runToken
    (toLowerCase : JString → JString)
    (app : App)
    (index : Nat)
    (token : JString) :
    SameChats app (app.runToken toLowerCase index token) := by
  rw [runToken_eq]
  split
  case h_1 | h_2 =>
    exact ⟨rfl, rfl, rfl, UserFiles.loadChats_saveMessages _ _ _ _ _⟩
  case h_3 | h_4 => exact ⟨rfl, rfl, rfl, rfl⟩

/-- Only the three operations on chats change the chat lists. -/
theorem sameChats_step
    (noLoad : event ≠ .loadChats)
    (noCreate : event ≠ .createNewChat)
    (noDelete : ∀ chat, event ≠ .deleteChat chat)
    (fired : app.step toLowerCase event = some next) :
    SameChats app next := by
  obtain ⟨_, fires⟩ := fires_of_step fired
  cases fires with
  | saveSettings | loadMessages | sendMessage | deliver | post | endStream =>
      exact ⟨rfl, rfl, rfl, rfl⟩
  | loadChats => exact absurd rfl noLoad
  | createNewChat => exact absurd rfl noCreate
  | deleteChat chat => exact absurd rfl (noDelete chat)
  | runPosted index token rest queued =>
      have ran := sameChats_runToken toLowerCase
        (app.withViewModel { app.viewModel with posted := rest }) index token
      exact ⟨ran.chats, ran.exposed, ran.nextChat, ran.stored⟩

/-- Putting new or listed objects into the live data. -/
theorem Catalogued.setChats
    (catalogued : app.Catalogued)
    (chats : List ChatObject)
    (nextChat : Nat)
    (later : app.viewModel.nextChat ≤ nextChat)
    (known : ∀ chat ∈ chats, chat ∈ app.viewModel.exposed ∨
      (app.viewModel.nextChat ≤ chat.identity ∧ chat.identity < nextChat))
    (unique : ∀ first ∈ chats, ∀ second ∈ chats,
      first.identity = second.identity → first = second) :
    (app.withViewModel { app.viewModel.setChats chats with
      nextChat := nextChat }).Catalogued := by
  refine ⟨fun chat present => List.mem_append_right _ present,
    fun chat present => ?_, fun first inFirst second inSecond equal => ?_⟩
  · rcases List.mem_append.mp present with old | new
    · exact Nat.lt_of_lt_of_le (catalogued.allocated chat old) later
    · rcases known chat new with old | fresh
      · exact Nat.lt_of_lt_of_le (catalogued.allocated chat old) later
      · exact fresh.2
  · -- an object that is not new has been exposed before
    have split : ∀ chat ∈ app.viewModel.exposed ++ chats,
        chat ∈ app.viewModel.exposed ∨
          (chat ∈ chats ∧ app.viewModel.nextChat ≤ chat.identity) := by
      intro chat present
      rcases List.mem_append.mp present with old | new
      · exact Or.inl old
      · exact (known chat new).imp_right fun fresh => ⟨new, fresh.1⟩
    rcases split first inFirst with old | new <;>
      rcases split second inSecond with old' | new'
    · exact catalogued.unique first old second old' equal
    · have := catalogued.allocated first old
      omega
    · have := catalogued.allocated second old'
      omega
    · exact unique first new.1 second new'.1 equal

/-- Every event keeps the catalogue of the chat objects. -/
theorem Catalogued.step
    (catalogued : app.Catalogued)
    (fired : app.step toLowerCase event = some next) :
    next.Catalogued := by
  by_cases other : (event ≠ .loadChats ∧ event ≠ .createNewChat) ∧
      ∀ chat, event ≠ .deleteChat chat
  · have same := sameChats_step other.1.1 other.1.2 other.2 fired
    exact ⟨by rw [same.chats, same.exposed]; exact catalogued.listed,
      by rw [same.exposed, same.nextChat]; exact catalogued.allocated,
      by rw [same.exposed]; exact catalogued.unique⟩
  obtain ⟨_, fires⟩ := fires_of_step fired
  cases fires with
  | saveSettings | loadMessages | sendMessage | deliver | post | endStream
  | runPosted => simp at other
  | loadChats =>
      have loaded := catalogued.setChats
        ((app.files.loadChats app.username).mapIdx fun index record =>
          { record with identity := app.viewModel.nextChat + index })
        (app.viewModel.nextChat + (app.files.loadChats app.username).length)
        (Nat.le_add_right _ _)
        (by
          intro chat present
          obtain ⟨index, inside, rfl⟩ := List.mem_mapIdx.mp present
          exact Or.inr ⟨Nat.le_add_right _ _, Nat.add_lt_add_left inside _⟩)
        (by
          intro first inFirst second inSecond equal
          obtain ⟨index, inside, rfl⟩ := List.mem_mapIdx.mp inFirst
          obtain ⟨index', inside', rfl⟩ := List.mem_mapIdx.mp inSecond
          obtain rfl : index = index' := Nat.add_left_cancel equal
          rfl)
      exact ⟨loaded.listed, loaded.allocated, loaded.unique⟩
  | createNewChat =>
      have created := catalogued.setChats
        (app.viewModel.chats ++
          [{ name := jstr "Chat " ++ jstr (toString (maxId app.viewModel.chats + 1))
             id := maxId app.viewModel.chats + 1
             identity := app.viewModel.nextChat }])
        (app.viewModel.nextChat + 1) (Nat.le_succ _)
        (by
          intro chat present
          rcases List.mem_append.mp present with old | new
          · exact Or.inl (catalogued.listed chat old)
          · rw [List.mem_singleton.mp new]
            exact Or.inr ⟨le_rfl, Nat.lt_succ_self _⟩)
        (by
          have below := fun chat present =>
            catalogued.allocated chat (catalogued.listed chat present)
          intro first inFirst second inSecond equal
          rcases List.mem_append.mp inFirst with old | new <;>
            rcases List.mem_append.mp inSecond with old' | new'
          · exact catalogued.unique first (catalogued.listed first old) second
              (catalogued.listed second old') equal
          · have less := below first old
            rw [equal, List.mem_singleton.mp new'] at less
            exact absurd less (Nat.lt_irrefl _)
          · have less := below second old'
            rw [← equal, List.mem_singleton.mp new] at less
            exact absurd less (Nat.lt_irrefl _)
          · rw [List.mem_singleton.mp new, List.mem_singleton.mp new'])
      exact ⟨created.listed, created.allocated, created.unique⟩
  | deleteChat chat present =>
      have deleted := catalogued.setChats
        (app.viewModel.chats.eraseP (·.identity == chat.identity))
        app.viewModel.nextChat le_rfl
        (fun other listed => Or.inl (catalogued.listed other
          (List.eraseP_subset listed)))
        (fun first inFirst second inSecond => catalogued.unique
          first (catalogued.listed first (List.eraseP_subset inFirst))
          second (catalogued.listed second (List.eraseP_subset inSecond)))
      exact ⟨deleted.listed, deleted.allocated, deleted.unique⟩

end Catalogue

section Agreement

/-- Erasing by identity is erasing by id where the object is in the list. -/
theorem map_id_eraseP_of_listed
    {chats : List ChatObject}
    {chat : ChatObject}
    (unique : ∀ first ∈ chats, first.identity = chat.identity → first = chat)
    (distinct : (chats.map (·.id)).Nodup)
    (listed : chat ∈ chats) :
    (chats.eraseP (·.identity == chat.identity)).map (·.id) =
      (chats.map (·.id)).erase chat.id := by
  induction chats with
  | nil => cases listed
  | cons first rest inductionHypothesis =>
      rw [List.map_cons, List.nodup_cons] at distinct
      by_cases same : first.identity = chat.identity
      · obtain rfl := unique first List.mem_cons_self same
        simp
      · have other : first.id ≠ chat.id := by
          intro equal
          rcases List.mem_cons.mp listed with rfl | later
          · exact same rfl
          · exact distinct.1 (equal ▸ List.mem_map_of_mem later)
        have later : chat ∈ rest := by
          rcases List.mem_cons.mp listed with rfl | later
          · exact absurd rfl same
          · exact later
        rw [List.eraseP_cons_of_neg (by simpa using same), List.map_cons,
          List.map_cons, List.erase_cons_tail (by simpa using other),
          inductionHypothesis
            (fun object present => unique object (List.mem_cons_of_mem _ present))
            distinct.2 later]

/-- Ids stored after a removal. -/
theorem map_id_removeChat
    (files : UserFiles)
    (username : JString)
    (chatId : JInt) :
    ((files.removeChat username chatId).loadChats username).map (·.id) =
      ((files.loadChats username).map (·.id)).erase chatId := by
  rw [UserFiles.loadChats_removeChat, List.erase_eq_eraseP', List.eraseP_map]
  rfl

theorem listedIds_deleteChat_of_listed
    {chat listed : ChatObject}
    (catalogued : app.Catalogued)
    (agree : app.Agree)
    (exposed : chat ∈ app.viewModel.exposed)
    (present : listed ∈ app.viewModel.chats)
    (same : listed.identity = chat.identity) :
    (app.deleteChat chat).listedIds = app.listedIds.erase chat.id := by
  have equal : listed = chat := catalogued.unique listed
    (catalogued.listed listed present) chat exposed same
  subst equal
  exact map_id_eraseP_of_listed
    (fun first inside same => catalogued.unique first
      (catalogued.listed first inside) listed exposed same)
    agree.distinct present

theorem listedIds_deleteChat_of_not_listed
    {chat : ChatObject}
    (absent : ∀ listed ∈ app.viewModel.chats,
      listed.identity ≠ chat.identity) :
    (app.deleteChat chat).listedIds = app.listedIds := by
  change ((app.viewModel.chats.eraseP _).map _) = _
  rw [List.eraseP_of_forall_not fun listed present => by
    simpa using absent listed present]
  rfl

theorem storedIds_deleteChat
    (chat : ChatObject) :
    (app.deleteChat chat).storedIds = app.storedIds.erase chat.id :=
  map_id_removeChat app.files app.username chat.id

theorem listedIds_loadChats : app.loadChats.listedIds = app.storedIds := by
  change List.map _ (List.mapIdx _ _) = List.map _ _
  apply List.ext_getElem
  · simp
  · intro index inside inside'
    simp

theorem listedIds_createNewChat :
    app.createNewChat.listedIds =
      app.listedIds ++ [maxId app.viewModel.chats + 1] :=
  List.map_append

theorem storedIds_createNewChat :
    app.createNewChat.storedIds =
      app.listedIds ++ [maxId app.viewModel.chats + 1] := by
  have saved := UserFiles.loadChats_saveChats app.files app.username
  change List.map _ (UserFiles.loadChats (UserFiles.saveChats _ app.username _)
    app.username) = _
  rw [saved]
  simp [listedIds]

/-- A step keeps the agreement of the two copies exactly when it is current. -/
theorem agree_step_iff
    (catalogued : app.Catalogued)
    (agree : app.Agree)
    (fired : app.step toLowerCase event = some next) :
    next.Agree ↔ app.Current event := by
  obtain ⟨_, fires⟩ := fires_of_step fired
  cases fires with
  | saveSettings | loadMessages | sendMessage | deliver | post | endStream
  | runPosted =>
      have same := sameChats_step (by simp) (by simp) (by simp) fired
      refine ⟨fun _ => trivial, fun _ => ⟨?_, ?_⟩⟩
      · rw [listedIds, storedIds, same.chats, same.stored]
        exact agree.same
      · rw [listedIds, same.chats]
        exact agree.distinct
  | loadChats =>
      refine ⟨fun _ => trivial, fun _ => ⟨listedIds_loadChats, ?_⟩⟩
      rw [listedIds_loadChats, ← agree.same]
      exact agree.distinct
  | createNewChat =>
      have fresh := newId_mem_iff app.viewModel.chats
      have current : app.Current .createNewChat ↔
          maxId app.viewModel.chats + 1 ∉ app.listedIds := by
        change _ ↔ maxId app.viewModel.chats + 1 ∉ app.viewModel.chats.map _
        rw [fresh, not_and_or]
        rfl
      rw [current]
      constructor
      · intro after
        have distinct := after.distinct
        rw [listedIds_createNewChat, List.nodup_append] at distinct
        intro present
        exact distinct.2.2 _ present _ (List.mem_singleton_self _) rfl
      · intro absent
        refine ⟨by rw [listedIds_createNewChat, storedIds_createNewChat], ?_⟩
        rw [listedIds_createNewChat, List.nodup_append]
        refine ⟨agree.distinct, List.nodup_singleton _, ?_⟩
        rintro id present other new rfl
        exact absent (List.mem_singleton.mp new ▸ present)
  | deleteChat chat exposed =>
      by_cases listed : ∃ listed ∈ app.viewModel.chats,
          listed.identity = chat.identity
      · refine ⟨fun _ => Or.inl listed, fun _ => ?_⟩
        obtain ⟨listed, present, same⟩ := listed
        have erased := listedIds_deleteChat_of_listed catalogued agree exposed
          present same
        refine ⟨?_, ?_⟩
        · rw [erased, storedIds_deleteChat, agree.same]
        · rw [erased]
          exact agree.distinct.erase chat.id
      · have kept : (app.deleteChat chat).listedIds = app.listedIds :=
          listedIds_deleteChat_of_not_listed
            fun object present same => listed ⟨object, present, same⟩
        have current : app.Current (.deleteChat chat) ↔
            chat.id ∉ app.listedIds :=
          or_iff_right listed
        rw [current]
        constructor
        · intro after
          have same := after.same
          rw [kept, storedIds_deleteChat, ← agree.same] at same
          exact List.erase_eq_self_iff.mp same.symm
        · intro absent
          refine ⟨?_, by rw [kept]; exact agree.distinct⟩
          rw [kept, storedIds_deleteChat, ← agree.same,
            List.erase_eq_self_iff.mpr absent]

/-- Where the copies agree, only `createNewChat` adds an id. -/
theorem Agree.noReappearance
    (agree : app.Agree)
    (event : Event) :
    NoReappearance toLowerCase app event := by
  intro next fired id present
  have both : id ∈ app.listedIds → id ∈ app.listedIds ∧ id ∈ app.storedIds :=
    fun listed => ⟨listed, agree.same ▸ listed⟩
  obtain ⟨_, fires⟩ := fires_of_step fired
  cases fires with
  | saveSettings | loadMessages | sendMessage | deliver | post | endStream
  | runPosted =>
      have same := sameChats_step (by simp) (by simp) (by simp) fired
      rw [listedIds, storedIds, same.chats, same.stored] at present
      refine Or.inl (both ?_)
      rcases present with listed | stored
      · exact listed
      · rw [agree.same]
        exact stored
  | loadChats =>
      refine Or.inl (both ?_)
      rw [agree.same]
      rcases present with listed | stored
      · rw [listedIds_loadChats] at listed
        exact listed
      · exact stored
  | createNewChat =>
      rw [listedIds_createNewChat, storedIds_createNewChat, or_self,
        List.mem_append, List.mem_singleton] at present
      exact present.imp both fun new => ⟨rfl, new⟩
  | deleteChat chat exposed =>
      refine Or.inl (both ?_)
      rcases present with listed | stored
      · obtain ⟨object, inside, rfl⟩ := List.mem_map.mp listed
        exact List.mem_map_of_mem (List.eraseP_subset inside)
      · rw [storedIds_deleteChat, ← agree.same] at stored
        exact List.mem_of_mem_erase stored

end Agreement

section Runs

variable {prefs : Prefs}
variable {files : UserFiles}
variable {events : List Event}

/-- A view model that has just been created has exposed no chat. -/
theorem catalogued_launch
    (prefs : Prefs)
    (files : UserFiles) :
    Catalogued { prefs := prefs, files := files } :=
  ⟨by simp, by simp, by simp⟩

/-- From the first `loadChats` on, over stored chats of different ids, the two
copies agree in every state exactly when every step is current; and then a chat
that was deleted does not come back. -/
theorem always_agree_iff
    (distinct : ((files.loadChats (Prefs.orNull prefs.username)).map
      (·.id)).Nodup)
    (ran : (machine toLowerCase).run
      (App.loadChats { prefs := prefs, files := files }) events = some finish) :
    ((machine toLowerCase).Always Agree
        (App.loadChats { prefs := prefs, files := files }) events ↔
      (machine toLowerCase).Guarded Current
        (App.loadChats { prefs := prefs, files := files }) events) ∧
    ((machine toLowerCase).Guarded Current
        (App.loadChats { prefs := prefs, files := files }) events →
      (machine toLowerCase).Guarded (NoReappearance toLowerCase)
        (App.loadChats { prefs := prefs, files := files }) events) := by
  have loads : App.step toLowerCase { prefs := prefs, files := files }
      .loadChats = some (App.loadChats { prefs := prefs, files := files }) := rfl
  have catalogued := (catalogued_launch prefs files).step loads
  have agree : (App.loadChats { prefs := prefs, files := files }).Agree := by
    refine ⟨listedIds_loadChats, ?_⟩
    rw [listedIds_loadChats]
    exact distinct
  constructor
  · exact Transition.Machine.always_iff_guarded
      (fun _ _ _ catalogued fired => catalogued.step fired)
      (fun _ _ _ catalogued agree fired => agree_step_iff catalogued agree fired)
      ran catalogued agree
  · intro guarded
    have kept : ∀ app event next, App.Catalogued app ∧ App.Agree app →
        app.Current event → (machine toLowerCase).step app event = some next →
          next.Catalogued ∧ next.Agree :=
      fun _ _ _ holds current fired => ⟨holds.1.step fired,
        (agree_step_iff holds.1 holds.2 fired).mpr current⟩
    exact Transition.Machine.guarded_mono kept
      (fun _ event holds _ => holds.2.noReappearance event)
      guarded ⟨catalogued, agree⟩

/-- Two chats of the user whose name is not set. -/
def twoChats : UserFiles :=
  UserFiles.saveChats (fun _ => none) (Prefs.orNull none)
    [⟨jstr "Chat 1", 1⟩, ⟨jstr "Chat 2", 2⟩]

/-- A chat that was just created and is deleted through its own object. -/
theorem always_agree_of_listed_object :
    (machine toLowerCaseAscii).Always Agree
      (App.loadChats { files := twoChats })
      [.createNewChat, .deleteChat ⟨⟨jstr "Chat 3", 3⟩, 2⟩, .loadChats] := by
  have distinct : ((twoChats.loadChats (Prefs.orNull none)).map
      (·.id)).Nodup := by decide +kernel
  obtain ⟨finish, ran⟩ := Option.isSome_iff_exists.mp
    (show ((machine toLowerCaseAscii).run (App.loadChats { files := twoChats })
      [.createNewChat, .deleteChat ⟨⟨jstr "Chat 3", 3⟩, 2⟩,
        .loadChats]).isSome by decide +kernel)
  exact (always_agree_iff distinct ran).1.mpr (by decide +kernel)

/-- The object of an earlier `loadChats` is deleted on disk and stays in memory;
the next new chat writes it back. -/
theorem not_agree_of_stale_object :
    ∃ deleted finish,
      (machine toLowerCaseAscii).run (App.loadChats { files := twoChats })
        [.loadChats, .deleteChat ⟨⟨jstr "Chat 2", 2⟩, 1⟩] = some deleted ∧
      deleted.storedIds = [1] ∧
      deleted.listedIds = [1, 2] ∧
      ¬deleted.Agree ∧
      (machine toLowerCaseAscii).run deleted [.createNewChat] = some finish ∧
      finish.storedIds = [1, 2, 3] := by
  obtain ⟨deleted, ran, seen⟩ := Option.map_eq_some_iff.mp
    (show ((machine toLowerCaseAscii).run (App.loadChats { files := twoChats })
        [.loadChats, .deleteChat ⟨⟨jstr "Chat 2", 2⟩, 1⟩]).map
        (fun app => (app.storedIds, app.listedIds, app.createNewChat.storedIds,
          app.crashed)) =
      some ([1], [1, 2], [1, 2, 3], false) by decide +kernel)
  simp only [Prod.mk.injEq] at seen
  obtain ⟨stored, listed, rewritten, alive⟩ := seen
  refine ⟨deleted, deleted.createNewChat, ran, stored, listed, fun agree => ?_,
    ?_, rewritten⟩
  · have same := agree.same
    rw [stored, listed] at same
    cases same
  · simp [machine, App.step, alive]

end Runs

end App
end Chat
end IdoProject
