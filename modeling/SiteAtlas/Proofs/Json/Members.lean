import SiteAtlas.Json.Value

/-!
# Members of sorted lists

Sorting a list of entries keeps, for each key, the last value that the list gives it. So the members
of an object are known without sorting: its keys are those of the list, and each value is the last
one.
-/
namespace SiteAtlas

section Entries

variable {κ α : Type} [Ord κ]

theorem entryAt?_cons_of_ne [Std.LawfulEqOrd κ] {key other : κ} (h : key ≠ other) (value : α)
    (rest : List (κ × α)) : entryAt? key ((other, value) :: rest) = entryAt? key rest := by
  have hcompare : compare key other ≠ .eq := fun he => h (Std.LawfulEqCmp.eq_of_compare he)
  rw [entryAt?, if_neg hcompare]

theorem entryAt?_append (key : κ) (es fs : List (κ × α)) :
    entryAt? key (es ++ fs) = (entryAt? key es).or (entryAt? key fs) := by
  induction es with
  | nil => rfl
  | cons e es ih => by_cases h : compare key e.1 = .eq <;> simp [entryAt?, h, ih]

/-- Every entry of a sorted list comes from the list. -/
theorem mem_of_mem_sortEntries {es : List (κ × α)} {e : κ × α} (h : e ∈ sortEntries es) :
    e ∈ es := by
  have step : ∀ (es acc : List (κ × α)),
      e ∈ es.foldl (fun sorted e => putEntry e.1 e.2 sorted) acc → e ∈ es ∨ e ∈ acc := by
    intro es
    induction es with
    | nil => exact fun acc h => .inr h
    | cons f es ih =>
      intro acc h
      rcases ih _ h with h | h
      · exact .inl (List.mem_cons_of_mem _ h)
      · rcases mem_putEntry h with rfl | h
        · exact .inl List.mem_cons_self
        · exact .inr h
  simpa using step es [] h

theorem entryAt?_isSome_iff [Std.LawfulEqOrd κ] {key : κ} {es : List (κ × α)} :
    (entryAt? key es).isSome ↔ ∃ e ∈ es, e.1 = key := by
  induction es with
  | nil => simp
  | cons e es ih =>
    by_cases h : compare key e.1 = .eq
    · have hkey : key = e.1 := Std.LawfulEqCmp.eq_of_compare h
      simp [entryAt?, hkey]
    · have hkey : e.1 ≠ key := by
        rintro rfl
        exact h Std.ReflCmp.compare_self
      simp [entryAt?, h, ih, hkey]

theorem entryAt?_eq_none_iff [Std.LawfulEqOrd κ] {key : κ} {es : List (κ × α)} :
    entryAt? key es = none ↔ ∀ e ∈ es, e.1 ≠ key := by
  rw [← Option.not_isSome_iff_eq_none, entryAt?_isSome_iff]
  exact ⟨fun h e he hkey => h ⟨e, he, hkey⟩, fun h ⟨e, he, hkey⟩ => h e he hkey⟩

/-- Of equal keys the last one counts. -/
theorem entryAt?_sortEntries [Std.LawfulEqOrd κ] (key : κ) (es : List (κ × α)) :
    entryAt? key (sortEntries es) = entryAt? key es.reverse := by
  have step : ∀ (es acc : List (κ × α)),
      entryAt? key (es.foldl (fun sorted e => putEntry e.1 e.2 sorted) acc) =
        (entryAt? key es.reverse).or (entryAt? key acc) := by
    intro es
    induction es with
    | nil => exact fun acc => rfl
    | cons e es ih =>
      intro acc
      rw [List.foldl_cons, ih, List.reverse_cons, entryAt?_append, Option.or_assoc]
      by_cases h : key = e.1
      · subst h
        simp [entryAt?]
      · have hne : compare key e.1 ≠ .eq := fun he => h (Std.LawfulEqCmp.eq_of_compare he)
        simp [entryAt?, entryAt?_putEntry_of_ne _ h, hne]
  simpa [sortEntries] using step es []

/-- The keys of a list are those of the sorted list. -/
theorem exists_mem_sortEntries [Std.LawfulEqOrd κ] {es : List (κ × α)} {e : κ × α} (h : e ∈ es) :
    ∃ f ∈ sortEntries es, f.1 = e.1 := by
  rw [← entryAt?_isSome_iff, entryAt?_sortEntries, entryAt?_isSome_iff]
  exact ⟨e, List.mem_reverse.2 h, rfl⟩

/-- In an ascending list each entry is the one that is found at its key. -/
theorem entryAt?_of_mem [Std.LawfulEqOrd κ] [Std.OrientedOrd κ] {es : List (κ × α)} {e : κ × α}
    (h : Ascending es) (he : e ∈ es) : entryAt? e.1 es = some e.2 := by
  induction es with
  | nil => cases he
  | cons f es ih =>
    obtain ⟨hf, hes⟩ := List.pairwise_cons.1 h
    rcases List.mem_cons.1 he with rfl | he
    · simp [entryAt?]
    · have hgt : compare e.1 f.1 = .gt := Std.OrientedCmp.gt_of_lt (hf e he)
      simp [entryAt?, hgt, ih hes he]

/-- If keys occur once, each entry is the one that is found at its key. -/
theorem entryAt?_eq_some_iff [Std.LawfulEqOrd κ] {es : List (κ × α)}
    (h : es.Pairwise fun e f => e.1 ≠ f.1) {key : κ} {value : α} :
    entryAt? key es = some value ↔ (key, value) ∈ es := by
  induction es with
  | nil => simp
  | cons e es ih =>
    obtain ⟨hne, hes⟩ := List.pairwise_cons.1 h
    by_cases hkey : key = e.1
    · have hnone : (key, value) ∉ es := fun hmem => hne _ hmem hkey.symm
      subst hkey
      simp [entryAt?, hnone, Prod.ext_iff, eq_comm]
    · have hcompare : compare key e.1 ≠ .eq := fun he => hkey (Std.LawfulEqCmp.eq_of_compare he)
      simp [entryAt?, hcompare, ih hes, Prod.ext_iff, hkey]

/-- No key of an ascending list occurs twice. -/
theorem pairwise_ne_of_ascending [Std.TransOrd κ] {es : List (κ × α)} (h : Ascending es) :
    es.Pairwise fun e f => e.1 ≠ f.1 := by
  refine h.imp fun {e f} hlt heq => ?_
  have hself : compare f.1 f.1 = .eq := Std.ReflCmp.compare_self
  rw [heq, hself] at hlt
  cases hlt

theorem pairwise_ne_sortEntries [Std.TransOrd κ] [Std.LawfulEqOrd κ] (es : List (κ × α)) :
    (sortEntries es).Pairwise fun e f => e.1 ≠ f.1 :=
  pairwise_ne_of_ascending (ascending_sortEntries es)

/-- Ascending lists with the same keys have them in the same order. -/
theorem map_fst_eq_of_perm [Std.TransOrd κ] {β : Type} {es : List (κ × α)} {fs : List (κ × β)}
    (hes : Ascending es) (hfs : Ascending fs) (h : (es.map Prod.fst).Perm (fs.map Prod.fst)) :
    es.map Prod.fst = fs.map Prod.fst := by
  have hkeys : (es.map Prod.fst).Pairwise fun k l => compare k l = .lt := List.pairwise_map.2 hes
  refine h.eq_of_pairwise (fun k l _ _ hkl hlk => ?_) hkeys (List.pairwise_map.2 hfs)
  rw [Std.OrientedCmp.gt_of_lt hkl] at hlk
  cases hlk

/-- Sorting keeps all entries if keys occur once. -/
theorem perm_sortEntries [Std.TransOrd κ] [Std.LawfulEqOrd κ] {es : List (κ × α)}
    (h : es.Pairwise fun e f => e.1 ≠ f.1) : (sortEntries es).Perm es := by
  have hne {e f : κ × α} (hkeys : e.1 ≠ f.1) : e ≠ f := fun heq => hkeys (congrArg Prod.fst heq)
  refine (List.perm_ext_iff_of_nodup ((pairwise_ne_sortEntries es).imp hne) (h.imp hne)).2
    fun e => ⟨mem_of_mem_sortEntries, fun he => ?_⟩
  obtain ⟨f, hf, hkey⟩ := exists_mem_sortEntries he
  have hfound : entryAt? f.1 es = some f.2 :=
    (entryAt?_eq_some_iff h).2 (mem_of_mem_sortEntries hf)
  rw [hkey, (entryAt?_eq_some_iff h).2 he] at hfound
  rwa [Prod.ext hkey (Option.some.inj hfound).symm] at hf

end Entries

/-- If no member of a list has the key of another one, they are the members of the object. -/
theorem Json.member?_ofMembers {members : List (String × Json)}
    (h : members.Pairwise fun e f => e.1 ≠ f.1) {key : String} {value : Json} :
    (Json.ofMembers members).member? key = some value ↔ (key, value) ∈ members := by
  have hsymm : members.reverse.Pairwise fun e f => e.1 ≠ f.1 :=
    List.pairwise_reverse.2 (h.imp fun hne => hne.symm)
  rw [Json.ofMembers, Json.member?, entryAt?_sortEntries, entryAt?_eq_some_iff hsymm,
    List.mem_reverse]

/-- If keys occur once, the order of the members does not matter. -/
theorem Json.ofMembers_perm {members others : List (String × Json)}
    (h : members.Pairwise fun e f => e.1 ≠ f.1) (hperm : members.Perm others) :
    Json.ofMembers members = .ofMembers others := by
  have hothers : others.Pairwise fun e f => e.1 ≠ f.1 :=
    hperm.pairwise h fun hne => hne.symm
  refine congrArg Json.object (eq_of_entryAt? (ascending_sortEntries _) (ascending_sortEntries _)
    fun key => Option.ext fun value => ?_)
  have hiff : (Json.ofMembers members).member? key = some value ↔ (key, value) ∈ members :=
    Json.member?_ofMembers h
  rw [hperm.mem_iff, ← Json.member?_ofMembers hothers] at hiff
  exact hiff

/-- The first member of a list counts if no later one has its key. -/
theorem Json.member?_ofMembers_cons {key : String} (value : Json) {rest : List (String × Json)}
    (h : ∀ e ∈ rest, e.1 ≠ key) :
    (Json.ofMembers ((key, value) :: rest)).member? key = some value := by
  have hrest : entryAt? key rest.reverse = none :=
    entryAt?_eq_none_iff.2 fun e he => h e (List.mem_reverse.1 he)
  rw [Json.ofMembers, Json.member?, entryAt?_sortEntries, List.reverse_cons, entryAt?_append, hrest]
  simp

theorem Json.member?_ofMembers_eq_none {key : String} {members : List (String × Json)}
    (h : ∀ e ∈ members, e.1 ≠ key) : (Json.ofMembers members).member? key = none := by
  rw [Json.ofMembers, Json.member?, entryAt?_sortEntries]
  exact entryAt?_eq_none_iff.2 fun e he => h e (List.mem_reverse.1 he)

/-- Setting a member is known from the last values of the keys. -/
theorem Json.ofMembers_eq_withMember {key : String} {value : Json}
    {members others : List (String × Json)} (hkey : entryAt? key members.reverse = some value)
    (hothers : ∀ name, name ≠ key →
      entryAt? name members.reverse = entryAt? name others.reverse) :
    Json.ofMembers members = Json.withMember key value (Json.ofMembers others) := by
  have hascending := ascending_putEntry key value (ascending_sortEntries others)
  refine congrArg Json.object (eq_of_entryAt? (ascending_sortEntries _) hascending fun name => ?_)
  rw [entryAt?_sortEntries]
  by_cases hname : name = key
  · rw [hname, hkey, entryAt?_putEntry_self]
  · rw [hothers name hname, entryAt?_putEntry_of_ne value hname, entryAt?_sortEntries]

theorem entryAt?_reverse_middle {key : String} (front rest : List (String × Json)) (value : Json)
    (h : ∀ e ∈ rest, e.1 ≠ key) :
    entryAt? key (front ++ (key, value) :: rest).reverse = some value := by
  have hrest : entryAt? key rest.reverse = none :=
    entryAt?_eq_none_iff.2 fun e he => h e (List.mem_reverse.1 he)
  simp [entryAt?_append, hrest]

theorem entryAt?_reverse_of_ne {key name : String} (front rest : List (String × Json))
    (value : Json) (h : name ≠ key) :
    entryAt? name (front ++ (key, value) :: rest).reverse =
      entryAt? name (front ++ rest).reverse := by
  have hne : compare name key ≠ .eq := fun he => h (Std.LawfulEqCmp.eq_of_compare he)
  simp [entryAt?_append, entryAt?, hne]

/-- Another value for the member that counts is what setting the member comes to. -/
theorem Json.ofMembers_replace {key : String} (front rest : List (String × Json))
    (value other : Json) (h : ∀ e ∈ rest, e.1 ≠ key) :
    Json.ofMembers (front ++ (key, other) :: rest) =
      Json.withMember key other (Json.ofMembers (front ++ (key, value) :: rest)) := by
  refine ofMembers_eq_withMember (entryAt?_reverse_middle front rest other h) fun name hname => ?_
  rw [entryAt?_reverse_of_ne front rest _ hname, entryAt?_reverse_of_ne front rest _ hname]

/-- One more member, behind which none has its key, is what setting the member comes to. -/
theorem Json.ofMembers_insert {key : String} (front rest : List (String × Json)) (value : Json)
    (h : ∀ e ∈ rest, e.1 ≠ key) :
    Json.ofMembers (front ++ (key, value) :: rest) =
      Json.withMember key value (Json.ofMembers (front ++ rest)) :=
  ofMembers_eq_withMember (entryAt?_reverse_middle front rest value h) fun _ hname =>
    entryAt?_reverse_of_ne front rest value hname

end SiteAtlas
