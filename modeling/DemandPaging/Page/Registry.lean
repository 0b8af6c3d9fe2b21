import DemandPaging.Page.Basic
import DemandPaging.Table

/-!
# The pages of an address space

A registry holds every page an address space knows about, resident or not, by page number.
-/

namespace DemandPaging

/-- The pages of one address space. -/
structure Registry where
  pages : Table Page := ∅

namespace Registry

/-- The page with this number. -/
def get? (registry : Registry) (vpn : PageNum) : Option Page := registry.pages[vpn]?

/-- The page an address lies in. -/
def find? (registry : Registry) (va : Address) : Option Page := registry.get? va.page

/-- Whether a page with this number is registered. -/
def contains (registry : Registry) (vpn : PageNum) : Bool := registry.pages.contains vpn

/-- Register a page under its number, which has to be free. -/
def insert (registry : Registry) (page : Page) : Except Refusal Registry :=
  if registry.contains page.vpn then .error (.pageExists page.vpn.base)
  else .ok { registry with pages := registry.pages.insert page.vpn page }

/-- Unregister the page with this number. -/
def erase (registry : Registry) (vpn : PageNum) : Registry :=
  { registry with pages := registry.pages.erase vpn }

/-- Change the page with this number, if it is registered. -/
def modify (registry : Registry) (vpn : PageNum) (f : Page → Page) : Registry :=
  { registry with pages := registry.pages.modify vpn f }

/-- The registered page numbers in increasing order. -/
def vpns (registry : Registry) : List PageNum := registry.pages.keys

/-- The registered pages in increasing order of number. -/
def toList (registry : Registry) : List Page := registry.pages.toList.map Prod.snd

/-- Number of registered pages. -/
def size (registry : Registry) : Nat := registry.pages.size

end Registry

end DemandPaging
