import Picloud.Storage.Offsite

/-!
# The keys of offsite backups

The sanitised IRI of a volume ends in the segments of the IRI (`sanitizeIriForPath_resource`): what
is removed and replaced lies before them. So the keys of two objects are the same only for one
volume, one kind of object and one name (`objectKey_inj`).
-/

namespace Picloud

open Lib

theorem slash_notMem_of_slug {s : String} (h : Slug s) : '/' ∉ s.toList := by
  intro hslash
  rcases h.2 '/' hslash with hlower | hdigit | hdash
  · exact absurd hlower (by decide)
  · exact absurd hdigit (by decide)
  · exact absurd hdash (by decide)

theorem colon_notMem_of_slug {s : String} (h : Slug s) : ':' ∉ s.toList := by
  intro hcolon
  rcases h.2 ':' hcolon with hlower | hdigit | hdash
  · exact absurd hlower (by decide)
  · exact absurd hdigit (by decide)
  · exact absurd hdash (by decide)

/-- The segments of the IRI of a volume. -/
def segments (product resourceType name : String) : List Char :=
  ['p', 'r', 'o', 'd', 'u', 'c', 't', 's'] ++ '/' :: (product.toList ++ '/' ::
    (resourceType.toList ++ '/' :: name.toList))

theorem resource_toList (iris : IriBuilder) (product resourceType name : String) :
    (iris.resource product resourceType name).toList =
      ("https://" ++ iris.domain ++ "/").toList ++ segments product resourceType name := by
  simp [IriBuilder.resource, IriBuilder.product, segments]

variable {name product resourceType : String}

theorem segmented_segments (hproduct : Slug product) (htype : Slug resourceType) (hname : Slug name) :
    Segmented '/' (segments product resourceType name) := by
  have hne : ∀ {s : String}, Slug s → s.toList ≠ [] := by
    intro s hs heq
    exact hs.1 (by simpa using heq)
  refine Segmented.cons (by decide) (by decide) ?_
  refine Segmented.cons (hne hproduct) (slash_notMem_of_slug hproduct) ?_
  refine Segmented.cons (hne htype) (slash_notMem_of_slug htype) ?_
  exact segmented_of_notMem (slash_notMem_of_slug hname)

/-- Slugs keep their colons, as they have none. -/
theorem map_segments (hproduct : Slug product) (htype : Slug resourceType) (hname : Slug name) :
    (segments product resourceType name).map (fun c => if c = ':' then '_' else c) =
      segments product resourceType name := by
  have hcolon : ':' ∉ segments product resourceType name := by
    simp [segments, colon_notMem_of_slug hproduct, colon_notMem_of_slug htype,
      colon_notMem_of_slug hname]
  have hkeep : ∀ c ∈ segments product resourceType name, (if c = ':' then '_' else c) = c := by
    intro c hc
    refine if_neg ?_
    rintro rfl
    exact hcolon hc
  rw [List.map_congr_left hkeep, List.map_id']

/-- What the cluster domain becomes in a sanitised IRI. -/
def sanitizedRoot (iris : IriBuilder) : List Char :=
  (replaceAll "http://".toList []
    (replaceAll "https://".toList [] ("https://" ++ iris.domain ++ "/").toList)).map
      fun c => if c = ':' then '_' else c

/-- The segments of an IRI come out of the sanitising unchanged. -/
theorem sanitizeIriForPath_resource (iris : IriBuilder) (hproduct : Slug product)
    (htype : Slug resourceType) (hname : Slug name) :
    (sanitizeIriForPath (iris.resource product resourceType name)).toList =
      sanitizedRoot iris ++ segments product resourceType name := by
  have hsegmented := segmented_segments hproduct htype hname
  have hreplace : ∀ {pat : List Char}, ['/', '/'] <:+ pat → ∀ s,
      replaceAll pat [] (s ++ segments product resourceType name) =
        replaceAll pat [] s ++ segments product resourceType name := by
    intro pat hpat s
    refine replaceAll_append ?_ s fun r hr hne s => hsegmented.not_isSuffix hr hne hpat s
    rintro rfl
    exact absurd (List.eq_nil_of_suffix_nil hpat) (List.cons_ne_nil _ _)
  have hhttps : ['/', '/'] <:+ "https://".toList := by decide
  have hhttp : ['/', '/'] <:+ "http://".toList := by decide
  rw [sanitizeIriForPath, String.toList_ofList, resource_toList, hreplace hhttps, hreplace hhttp,
    List.map_append, map_segments hproduct htype hname, sanitizedRoot]

/-- Different volumes have different paths. -/
theorem sanitizeIriForPath_inj {iris : IriBuilder} {v w : ResourceIri} (hv : IsVolumeIri iris v)
    (hw : IsVolumeIri iris w) (h : sanitizeIriForPath v.value = sanitizeIriForPath w.value) :
    v = w := by
  obtain ⟨product, resourceType, name, hproduct, htype, hname, rfl⟩ := hv
  obtain ⟨product', resourceType', name', hproduct', htype', hname', rfl⟩ := hw
  have hlist := congrArg String.toList h
  rw [sanitizeIriForPath_resource iris hproduct htype hname,
    sanitizeIriForPath_resource iris hproduct' htype' hname'] at hlist
  have hsegments := List.append_cancel_left hlist
  rw [segments, segments] at hsegments
  have hrest := List.tail_eq_of_cons_eq (List.append_cancel_left hsegments)
  have hrest' : (product.toList ++ '/' :: resourceType.toList) ++ '/' :: name.toList =
      (product'.toList ++ '/' :: resourceType'.toList) ++ '/' :: name'.toList := by
    simpa using hrest
  obtain ⟨hrest, hnames⟩ := append_cons_inj hrest' (slash_notMem_of_slug hname)
    (slash_notMem_of_slug hname')
  obtain ⟨hproducts, htypes⟩ := append_cons_inj hrest (slash_notMem_of_slug htype)
    (slash_notMem_of_slug htype')
  rw [String.toList_inj.mp hproducts, String.toList_inj.mp htypes, String.toList_inj.mp hnames]

namespace OffsiteBackupManager

/-- A key tells the volume, the kind of the object and its name. -/
theorem objectKey_inj {m : OffsiteBackupManager} {iris : IriBuilder} {v w : ResourceIri}
    {kind kind' name name' : String} (hv : IsVolumeIri iris v) (hw : IsVolumeIri iris w)
    (hkind : '/' ∉ kind.toList) (hkind' : '/' ∉ kind'.toList) (hname : '/' ∉ name.toList)
    (hname' : '/' ∉ name'.toList) (h : m.objectKey v kind name = m.objectKey w kind' name') :
    v = w ∧ kind = kind' ∧ name = name' := by
  have hlist := congrArg String.toList h
  have hsplit : ∀ (path kind name : String),
      (m.keyPrefix ++ "/" ++ path ++ "/" ++ kind ++ "/" ++ name).toList =
        ((m.keyPrefix.toList ++ '/' :: path.toList) ++ '/' :: kind.toList) ++ '/' :: name.toList := by
    intro path kind name
    simp
  rw [objectKey, objectKey, hsplit, hsplit] at hlist
  obtain ⟨hrest, hnames⟩ := append_cons_inj hlist hname hname'
  obtain ⟨hpaths, hkinds⟩ := append_cons_inj hrest hkind hkind'
  have hpath := List.tail_eq_of_cons_eq (List.append_cancel_left hpaths)
  exact ⟨sanitizeIriForPath_inj hv hw (String.toList_inj.mp hpath), String.toList_inj.mp hkinds,
    String.toList_inj.mp hnames⟩

end OffsiteBackupManager

end Picloud
