import Vanilla.Boot.Faultless

namespace Vanilla.Boot

/-! A download in which frames are rejected. The last page stores the hash of
whatever the pages that got through have left in the kernel area. -/

variable {engine : Engine} {initial : Contents} {state : BootState}

/-! ## The property -/

def blankPage : Page := .replicate 512 0xFF

/-- Pages in a row, followed by blank ones, are the image. -/
def InPlace (image : List UInt8) (pages : List Page) : Prop :=
  ∀ page < 16 * sect8k image.length, pages[page]?.getD blankPage = imagePage image page

end Vanilla.Boot
