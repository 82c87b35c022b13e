import Mathlib.Data.Nat.Notation

/-! # The catalogue of exported names

The names that the standard packages export, each as its length and five words of eight bytes, the
first byte of a name lowest.
-/

namespace Native

/-- A name of at most forty bytes. -/
structure SeedWords where
  length : Nat
  a : Nat
  b : Nat
  c : Nat
  d : Nat
  e : Nat
  deriving Repr, DecidableEq

def seedCommonLisp0 : List SeedWords := [
  ⟨17, 0x4f2d574f4c4c4126, 0x59454b2d52454854, 0x53, 0, 0⟩, ⟨4, 0x58554126, 0, 0, 0, 0⟩,
  ⟨5, 0x59444f4226, 0, 0, 0, 0⟩, ⟨12, 0x4e4f5249564e4526, 0x544e454d, 0, 0, 0⟩,
  ⟨4, 0x59454b26, 0, 0, 0, 0⟩, ⟨9, 0x414e4f4954504f26, 0x4c, 0, 0, 0⟩,
  ⟨5, 0x5453455226, 0, 0, 0, 0⟩, ⟨6, 0x454c4f485726, 0, 0, 0, 0⟩, ⟨1, 0x2a, 0, 0, 0, 0⟩,
  ⟨2, 0x2a2a, 0, 0, 0, 0⟩, ⟨3, 0x2a2a2a, 0, 0, 0, 0⟩,
  ⟨18, 0x4f2d4b414552422a, 0x4c414e4749532d4e, 0x2a53, 0, 0⟩,
  ⟨23, 0x454c49504d4f432a, 0x41502d454c49462d, 0x2a454d414e4854, 0, 0⟩,
  ⟨23, 0x454c49504d4f432a, 0x52542d454c49462d, 0x2a454d414e4555, 0, 0⟩,
  ⟨15, 0x454c49504d4f432a, 0x2a544e4952502d, 0, 0, 0⟩,
  ⟨17, 0x454c49504d4f432a, 0x45534f425245562d, 0x2a, 0, 0⟩,
  ⟨10, 0x492d47554245442a, 0x2a4f, 0, 0, 0⟩, ⟨15, 0x454747554245442a, 0x2a4b4f4f482d52, 0, 0, 0⟩,
  ⟨27, 0x544c55414645442a, 0x4d414e485441502d, 0x4c55414645442d45, 0x2a5354, 0⟩,
  ⟨14, 0x4f2d524f5252452a, 0x2a5455505455, 0, 0, 0⟩, ⟨10, 0x455255544145462a, 0x2a53, 0, 0, 0⟩,
  ⟨16, 0x2d4d59534e45472a, 0x2a5245544e554f43, 0, 0, 0⟩,
  ⟨15, 0x41502d44414f4c2a, 0x2a454d414e4854, 0, 0, 0⟩,
  ⟨12, 0x52502d44414f4c2a, 0x2a544e49, 0, 0, 0⟩,
  ⟨15, 0x52542d44414f4c2a, 0x2a454d414e4555, 0, 0, 0⟩,
  ⟨14, 0x45562d44414f4c2a, 0x2a45534f4252, 0, 0, 0⟩,
  ⟨18, 0x58454f5243414d2a, 0x4f4f482d444e4150, 0x2a4b, 0, 0⟩,
  ⟨9, 0x53454c55444f4d2a, 0x2a, 0, 0, 0⟩, ⟨9, 0x4547414b4341502a, 0x2a, 0, 0, 0⟩,
  ⟨13, 0x412d544e4952502a, 0x2a59415252, 0, 0, 0⟩, ⟨12, 0x422d544e4952502a, 0x2a455341, 0, 0, 0⟩,
  ⟨12, 0x432d544e4952502a, 0x2a455341, 0, 0, 0⟩]

def seedCommonLisp1 : List SeedWords := [
  ⟨14, 0x432d544e4952502a, 0x2a454c435249, 0, 0, 0⟩,
  ⟨14, 0x452d544e4952502a, 0x2a4550414353, 0, 0, 0⟩,
  ⟨14, 0x472d544e4952502a, 0x2a4d59534e45, 0, 0, 0⟩,
  ⟨14, 0x4c2d544e4952502a, 0x2a4854474e45, 0, 0, 0⟩,
  ⟨13, 0x4c2d544e4952502a, 0x2a4c455645, 0, 0, 0⟩, ⟨13, 0x4c2d544e4952502a, 0x2a53454e49, 0, 0, 0⟩,
  ⟨19, 0x4d2d544e4952502a, 0x4449572d52455349, 0x2a4854, 0, 0⟩,
  ⟨23, 0x502d544e4952502a, 0x49442d544e495250, 0x2a484354415053, 0, 0⟩,
  ⟨14, 0x502d544e4952502a, 0x2a5954544552, 0, 0, 0⟩,
  ⟨13, 0x522d544e4952502a, 0x2a58494441, 0, 0, 0⟩,
  ⟨16, 0x522d544e4952502a, 0x2a594c4241444145, 0, 0, 0⟩,
  ⟨20, 0x522d544e4952502a, 0x52414d2d54484749, 0x2a4e4947, 0, 0⟩,
  ⟨10, 0x492d59524555512a, 0x2a4f, 0, 0, 0⟩, ⟨14, 0x2d4d4f444e41522a, 0x2a4554415453, 0, 0, 0⟩,
  ⟨11, 0x41422d444145522a, 0x2a4553, 0, 0, 0⟩,
  ⟨27, 0x45442d444145522a, 0x4c462d544c554146, 0x4d524f462d54414f, 0x2a5441, 0⟩,
  ⟨11, 0x56452d444145522a, 0x2a4c41, 0, 0, 0⟩, ⟨15, 0x55532d444145522a, 0x2a535345525050, 0, 0, 0⟩,
  ⟨11, 0x424154444145522a, 0x2a454c, 0, 0, 0⟩,
  ⟨16, 0x5241444e4154532a, 0x2a5455504e492d44, 0, 0, 0⟩,
  ⟨17, 0x5241444e4154532a, 0x54555054554f2d44, 0x2a, 0, 0⟩,
  ⟨13, 0x414e494d5245542a, 0x2a4f492d4c, 0, 0, 0⟩,
  ⟨14, 0x4f2d45434152542a, 0x2a5455505455, 0, 0, 0⟩, ⟨1, 0x2b, 0, 0, 0, 0⟩,
  ⟨2, 0x2b2b, 0, 0, 0, 0⟩, ⟨3, 0x2b2b2b, 0, 0, 0, 0⟩, ⟨1, 0x2d, 0, 0, 0, 0⟩, ⟨1, 0x2f, 0, 0, 0, 0⟩,
  ⟨2, 0x2f2f, 0, 0, 0, 0⟩, ⟨3, 0x2f2f2f, 0, 0, 0, 0⟩, ⟨2, 0x3d2f, 0, 0, 0, 0⟩,
  ⟨2, 0x2b31, 0, 0, 0, 0⟩]

def seedCommonLisp2 : List SeedWords := [
  ⟨2, 0x2d31, 0, 0, 0, 0⟩, ⟨1, 0x3c, 0, 0, 0, 0⟩, ⟨2, 0x3d3c, 0, 0, 0, 0⟩, ⟨1, 0x3d, 0, 0, 0, 0⟩,
  ⟨1, 0x3e, 0, 0, 0, 0⟩, ⟨2, 0x3d3e, 0, 0, 0, 0⟩, ⟨5, 0x54524f4241, 0, 0, 0, 0⟩,
  ⟨3, 0x534241, 0, 0, 0, 0⟩, ⟨5, 0x534e4f4341, 0, 0, 0, 0⟩, ⟨4, 0x534f4341, 0, 0, 0, 0⟩,
  ⟨5, 0x48534f4341, 0, 0, 0, 0⟩, ⟨10, 0x4854454d2d444441, 0x444f, 0, 0, 0⟩,
  ⟨6, 0x4e494f4a4441, 0, 0, 0, 0⟩, ⟨12, 0x412d5453554a4441, 0x59415252, 0, 0, 0⟩,
  ⟨18, 0x42415453554a4441, 0x59415252412d454c, 0x502d, 0, 0⟩,
  ⟨17, 0x455441434f4c4c41, 0x434e4154534e492d, 0x45, 0, 0⟩,
  ⟨12, 0x48432d4148504c41, 0x502d5241, 0, 0, 0⟩, ⟨13, 0x4d554e4148504c41, 0x5043495245, 0, 0, 0⟩,
  ⟨3, 0x444e41, 0, 0, 0, 0⟩, ⟨6, 0x444e45505041, 0, 0, 0, 0⟩, ⟨5, 0x594c505041, 0, 0, 0, 0⟩,
  ⟨7, 0x534f504f525041, 0, 0, 0, 0⟩, ⟨12, 0x2d534f504f525041, 0x5453494c, 0, 0, 0⟩,
  ⟨4, 0x46455241, 0, 0, 0, 0⟩, ⟨16, 0x54454d4854495241, 0x524f5252452d4349, 0, 0, 0⟩,
  ⟨25, 0x54454d4854495241, 0x524f5252452d4349, 0x444e415245504f2d, 0x53, 0⟩,
  ⟨26, 0x54454d4854495241, 0x524f5252452d4349, 0x4954415245504f2d, 0x4e4f, 0⟩,
  ⟨5, 0x5941525241, 0, 0, 0, 0⟩, ⟨15, 0x49442d5941525241, 0x4e4f49534e454d, 0, 0, 0⟩,
  ⟨21, 0x49442d5941525241, 0x2d4e4f49534e454d, 0x54494d494c, 0, 0⟩,
  ⟨16, 0x49442d5941525241, 0x534e4f49534e454d, 0, 0, 0⟩,
  ⟨18, 0x49442d5941525241, 0x454d4543414c5053, 0x544e, 0, 0⟩]

def seedCommonLisp3 : List SeedWords := [
  ⟨18, 0x4c452d5941525241, 0x59542d544e454d45, 0x4550, 0, 0⟩,
  ⟨24, 0x41482d5941525241, 0x502d4c4c49462d53, 0x502d5245544e494f, 0, 0⟩,
  ⟨17, 0x4e492d5941525241, 0x2d53444e554f422d, 0x50, 0, 0⟩,
  ⟨10, 0x41522d5941525241, 0x4b4e, 0, 0, 0⟩, ⟨16, 0x41522d5941525241, 0x54494d494c2d4b4e, 0, 0, 0⟩,
  ⟨21, 0x4f522d5941525241, 0x2d524f4a414d2d57, 0x5845444e49, 0, 0⟩,
  ⟨16, 0x4f542d5941525241, 0x455a49532d4c4154, 0, 0, 0⟩,
  ⟨22, 0x4f542d5941525241, 0x455a49532d4c4154, 0x54494d494c2d, 0, 0⟩,
  ⟨6, 0x505941525241, 0, 0, 0, 0⟩, ⟨3, 0x485341, 0, 0, 0, 0⟩, ⟨4, 0x4e495341, 0, 0, 0, 0⟩,
  ⟨5, 0x484e495341, 0, 0, 0, 0⟩, ⟨6, 0x545245535341, 0, 0, 0, 0⟩, ⟨5, 0x434f535341, 0, 0, 0, 0⟩,
  ⟨8, 0x46492d434f535341, 0, 0, 0, 0⟩, ⟨12, 0x46492d434f535341, 0x544f4e2d, 0, 0, 0⟩,
  ⟨4, 0x4e415441, 0, 0, 0, 0⟩, ⟨5, 0x484e415441, 0, 0, 0, 0⟩, ⟨4, 0x4d4f5441, 0, 0, 0, 0⟩,
  ⟨9, 0x4148432d45534142, 0x52, 0, 0, 0⟩, ⟨11, 0x5254532d45534142, 0x474e49, 0, 0, 0⟩,
  ⟨6, 0x4d554e474942, 0, 0, 0, 0⟩, ⟨3, 0x544942, 0, 0, 0, 0⟩, ⟨7, 0x444e412d544942, 0, 0, 0, 0⟩,
  ⟨9, 0x43444e412d544942, 0x31, 0, 0, 0⟩, ⟨9, 0x43444e412d544942, 0x32, 0, 0, 0⟩,
  ⟨7, 0x5651452d544942, 0, 0, 0, 0⟩, ⟨7, 0x524f492d544942, 0, 0, 0, 0⟩,
  ⟨8, 0x444e414e2d544942, 0, 0, 0, 0⟩, ⟨7, 0x524f4e2d544942, 0, 0, 0, 0⟩,
  ⟨7, 0x544f4e2d544942, 0, 0, 0, 0⟩, ⟨8, 0x3143524f2d544942, 0, 0, 0, 0⟩]

def seedCommonLisp4 : List SeedWords := [
  ⟨8, 0x3243524f2d544942, 0, 0, 0, 0⟩, ⟨10, 0x544345562d544942, 0x524f, 0, 0, 0⟩,
  ⟨12, 0x544345562d544942, 0x502d524f, 0, 0, 0⟩, ⟨7, 0x524f582d544942, 0, 0, 0, 0⟩,
  ⟨5, 0x4b434f4c42, 0, 0, 0, 0⟩, ⟨5, 0x454c4f4f42, 0, 0, 0, 0⟩, ⟨7, 0x312d454c4f4f42, 0, 0, 0, 0⟩,
  ⟨7, 0x322d454c4f4f42, 0, 0, 0, 0⟩, ⟨9, 0x4e412d454c4f4f42, 0x44, 0, 0, 0⟩,
  ⟨11, 0x4e412d454c4f4f42, 0x314344, 0, 0, 0⟩, ⟨11, 0x4e412d454c4f4f42, 0x324344, 0, 0, 0⟩,
  ⟨8, 0x31432d454c4f4f42, 0, 0, 0, 0⟩, ⟨8, 0x32432d454c4f4f42, 0, 0, 0, 0⟩,
  ⟨9, 0x4c432d454c4f4f42, 0x52, 0, 0, 0⟩, ⟨9, 0x51452d454c4f4f42, 0x56, 0, 0, 0⟩,
  ⟨9, 0x4f492d454c4f4f42, 0x52, 0, 0, 0⟩, ⟨10, 0x414e2d454c4f4f42, 0x444e, 0, 0, 0⟩,
  ⟨9, 0x4f4e2d454c4f4f42, 0x52, 0, 0, 0⟩, ⟨10, 0x524f2d454c4f4f42, 0x3143, 0, 0, 0⟩,
  ⟨10, 0x524f2d454c4f4f42, 0x3243, 0, 0, 0⟩, ⟨9, 0x45532d454c4f4f42, 0x54, 0, 0, 0⟩,
  ⟨9, 0x4f582d454c4f4f42, 0x52, 0, 0, 0⟩, ⟨7, 0x4e41454c4f4f42, 0, 0, 0, 0⟩,
  ⟨11, 0x5341432d48544f42, 0x502d45, 0, 0, 0⟩, ⟨6, 0x50444e554f42, 0, 0, 0, 0⟩,
  ⟨5, 0x4b41455242, 0, 0, 0, 0⟩, ⟨16, 0x53414344414f5242, 0x4d41455254532d54, 0, 0, 0⟩,
  ⟨24, 0x53414344414f5242, 0x4d41455254532d54, 0x534d41455254532d, 0, 0⟩,
  ⟨14, 0x4e492d544c495542, 0x5353414c432d, 0, 0, 0⟩, ⟨7, 0x5453414c545542, 0, 0, 0, 0⟩,
  ⟨4, 0x45545942, 0, 0, 0, 0⟩, ⟨13, 0x534f502d45545942, 0x4e4f495449, 0, 0, 0⟩]

def seedCommonLisp5 : List SeedWords := [
  ⟨9, 0x5a49532d45545942, 0x45, 0, 0, 0⟩, ⟨6, 0x524141414143, 0, 0, 0, 0⟩,
  ⟨6, 0x524441414143, 0, 0, 0, 0⟩, ⟨5, 0x5241414143, 0, 0, 0, 0⟩, ⟨6, 0x524144414143, 0, 0, 0, 0⟩,
  ⟨6, 0x524444414143, 0, 0, 0, 0⟩, ⟨5, 0x5244414143, 0, 0, 0, 0⟩, ⟨4, 0x52414143, 0, 0, 0, 0⟩,
  ⟨6, 0x524141444143, 0, 0, 0, 0⟩, ⟨6, 0x524441444143, 0, 0, 0, 0⟩, ⟨5, 0x5241444143, 0, 0, 0, 0⟩,
  ⟨6, 0x524144444143, 0, 0, 0, 0⟩, ⟨6, 0x524444444143, 0, 0, 0, 0⟩, ⟨5, 0x5244444143, 0, 0, 0, 0⟩,
  ⟨4, 0x52444143, 0, 0, 0, 0⟩, ⟨20, 0x4752412d4c4c4143, 0x4c2d53544e454d55, 0x54494d49, 0, 0⟩,
  ⟨11, 0x54454d2d4c4c4143, 0x444f48, 0, 0, 0⟩,
  ⟨16, 0x58454e2d4c4c4143, 0x444f4854454d2d54, 0, 0, 0⟩, ⟨3, 0x524143, 0, 0, 0, 0⟩,
  ⟨4, 0x45534143, 0, 0, 0, 0⟩, ⟨5, 0x4843544143, 0, 0, 0, 0⟩, ⟨5, 0x4553414343, 0, 0, 0, 0⟩,
  ⟨6, 0x524141414443, 0, 0, 0, 0⟩, ⟨6, 0x524441414443, 0, 0, 0, 0⟩, ⟨5, 0x5241414443, 0, 0, 0, 0⟩,
  ⟨6, 0x524144414443, 0, 0, 0, 0⟩, ⟨6, 0x524444414443, 0, 0, 0, 0⟩, ⟨5, 0x5244414443, 0, 0, 0, 0⟩,
  ⟨4, 0x52414443, 0, 0, 0, 0⟩, ⟨6, 0x524141444443, 0, 0, 0, 0⟩, ⟨6, 0x524441444443, 0, 0, 0, 0⟩,
  ⟨5, 0x5241444443, 0, 0, 0, 0⟩]

def seedCommonLisp6 : List SeedWords := [
  ⟨6, 0x524144444443, 0, 0, 0, 0⟩, ⟨6, 0x524444444443, 0, 0, 0, 0⟩, ⟨5, 0x5244444443, 0, 0, 0, 0⟩,
  ⟨4, 0x52444443, 0, 0, 0, 0⟩, ⟨3, 0x524443, 0, 0, 0, 0⟩, ⟨7, 0x474e494c494543, 0, 0, 0, 0⟩,
  ⟨10, 0x5252452d4c4c4543, 0x524f, 0, 0, 0⟩, ⟨15, 0x5252452d4c4c4543, 0x454d414e2d524f, 0, 0, 0⟩,
  ⟨6, 0x524f52524543, 0, 0, 0, 0⟩, ⟨12, 0x432d45474e414843, 0x5353414c, 0, 0, 0⟩,
  ⟨4, 0x52414843, 0, 0, 0, 0⟩, ⟨9, 0x444f432d52414843, 0x45, 0, 0, 0⟩,
  ⟨15, 0x444f432d52414843, 0x54494d494c2d45, 0, 0, 0⟩,
  ⟨13, 0x574f442d52414843, 0x455341434e, 0, 0, 0⟩, ⟨10, 0x5551452d52414843, 0x4c41, 0, 0, 0⟩,
  ⟨13, 0x4552472d52414843, 0x5052455441, 0, 0, 0⟩, ⟨8, 0x544e492d52414843, 0, 0, 0, 0⟩,
  ⟨10, 0x53454c2d52414843, 0x5053, 0, 0, 0⟩, ⟨9, 0x4d414e2d52414843, 0x45, 0, 0, 0⟩,
  ⟨14, 0x544f4e2d52414843, 0x4c415551452d, 0, 0, 0⟩,
  ⟨17, 0x544f4e2d52414843, 0x524554414552472d, 0x50, 0, 0⟩,
  ⟨14, 0x544f4e2d52414843, 0x505353454c2d, 0, 0, 0⟩, ⟨11, 0x4350552d52414843, 0x455341, 0, 0, 0⟩,
  ⟨6, 0x3d2f52414843, 0, 0, 0, 0⟩, ⟨5, 0x3c52414843, 0, 0, 0, 0⟩, ⟨6, 0x3d3c52414843, 0, 0, 0, 0⟩,
  ⟨5, 0x3d52414843, 0, 0, 0, 0⟩, ⟨5, 0x3e52414843, 0, 0, 0, 0⟩, ⟨6, 0x3d3e52414843, 0, 0, 0, 0⟩,
  ⟨9, 0x4554434152414843, 0x52, 0, 0, 0⟩, ⟨10, 0x4554434152414843, 0x5052, 0, 0, 0⟩,
  ⟨10, 0x59542d4b43454843, 0x4550, 0, 0, 0⟩]

def seedCommonLisp7 : List SeedWords := [
  ⟨3, 0x534943, 0, 0, 0, 0⟩, ⟨5, 0x5353414c43, 0, 0, 0, 0⟩,
  ⟨10, 0x414e2d5353414c43, 0x454d, 0, 0, 0⟩, ⟨8, 0x464f2d5353414c43, 0, 0, 0, 0⟩,
  ⟨11, 0x4e492d5241454c43, 0x545550, 0, 0, 0⟩, ⟨12, 0x554f2d5241454c43, 0x54555054, 0, 0, 0⟩,
  ⟨5, 0x45534f4c43, 0, 0, 0, 0⟩, ⟨7, 0x48534148524c43, 0, 0, 0, 0⟩,
  ⟨9, 0x4148432d45444f43, 0x52, 0, 0, 0⟩, ⟨6, 0x454352454f43, 0, 0, 0, 0⟩,
  ⟨17, 0x54414c49504d4f43, 0x454550532d4e4f49, 0x44, 0, 0⟩, ⟨7, 0x454c49504d4f43, 0, 0, 0, 0⟩,
  ⟨12, 0x2d454c49504d4f43, 0x454c4946, 0, 0, 0⟩,
  ⟨21, 0x2d454c49504d4f43, 0x5441502d454c4946, 0x454d414e48, 0, 0⟩,
  ⟨17, 0x44454c49504d4f43, 0x4f4954434e55462d, 0x4e, 0, 0⟩,
  ⟨19, 0x44454c49504d4f43, 0x4f4954434e55462d, 0x502d4e, 0, 0⟩,
  ⟨14, 0x52454c49504d4f43, 0x4f5243414d2d, 0, 0, 0⟩,
  ⟨23, 0x52454c49504d4f43, 0x462d4f5243414d2d, 0x4e4f4954434e55, 0, 0⟩,
  ⟨10, 0x454d454c504d4f43, 0x544e, 0, 0, 0⟩, ⟨7, 0x58454c504d4f43, 0, 0, 0, 0⟩,
  ⟨8, 0x5058454c504d4f43, 0, 0, 0, 0⟩,
  ⟨26, 0x2d455455504d4f43, 0x424143494c505041, 0x4f4854454d2d454c, 0x5344, 0⟩,
  ⟨16, 0x2d455455504d4f43, 0x5354524154534552, 0, 0, 0⟩,
  ⟨11, 0x4e455441434e4f43, 0x455441, 0, 0, 0⟩,
  ⟨19, 0x4e455441434e4f43, 0x5254532d44455441, 0x4d4145, 0, 0⟩,
  ⟨27, 0x4e455441434e4f43, 0x5254532d44455441, 0x455254532d4d4145, 0x534d41, 0⟩,
  ⟨4, 0x444e4f43, 0, 0, 0, 0⟩, ⟨9, 0x4f495449444e4f43, 0x4e, 0, 0, 0⟩,
  ⟨9, 0x544147554a4e4f43, 0x45, 0, 0, 0⟩, ⟨4, 0x534e4f43, 0, 0, 0, 0⟩,
  ⟨5, 0x50534e4f43, 0, 0, 0, 0⟩, ⟨10, 0x544e4154534e4f43, 0x594c, 0, 0, 0⟩]

def seedCommonLisp8 : List SeedWords := [
  ⟨9, 0x544e4154534e4f43, 0x50, 0, 0, 0⟩, ⟨8, 0x45554e49544e4f43, 0, 0, 0, 0⟩,
  ⟨13, 0x2d4c4f52544e4f43, 0x524f525245, 0, 0, 0⟩, ⟨10, 0x494c412d59504f43, 0x5453, 0, 0, 0⟩,
  ⟨9, 0x53494c2d59504f43, 0x54, 0, 0, 0⟩,
  ⟨20, 0x5250502d59504f43, 0x505349442d544e49, 0x48435441, 0, 0⟩,
  ⟨14, 0x4145522d59504f43, 0x454c42415444, 0, 0, 0⟩, ⟨8, 0x5145532d59504f43, 0, 0, 0, 0⟩,
  ⟨14, 0x5254532d59504f43, 0x455255544355, 0, 0, 0⟩, ⟨11, 0x4d59532d59504f43, 0x4c4f42, 0, 0, 0⟩,
  ⟨9, 0x4552542d59504f43, 0x45, 0, 0, 0⟩, ⟨3, 0x534f43, 0, 0, 0, 0⟩, ⟨4, 0x48534f43, 0, 0, 0, 0⟩,
  ⟨5, 0x544e554f43, 0, 0, 0, 0⟩, ⟨8, 0x46492d544e554f43, 0, 0, 0, 0⟩,
  ⟨12, 0x46492d544e554f43, 0x544f4e2d, 0, 0, 0⟩, ⟨9, 0x5341434550595443, 0x45, 0, 0, 0⟩,
  ⟨5, 0x4755424544, 0, 0, 0, 0⟩, ⟨4, 0x46434544, 0, 0, 0, 0⟩, ⟨7, 0x4d49414c434544, 0, 0, 0, 0⟩,
  ⟨11, 0x544152414c434544, 0x4e4f49, 0, 0, 0⟩, ⟨7, 0x4552414c434544, 0, 0, 0, 0⟩,
  ⟨12, 0x462d45444f434544, 0x54414f4c, 0, 0, 0⟩,
  ⟨21, 0x552d45444f434544, 0x4c4153524556494e, 0x454d49542d, 0, 0⟩,
  ⟨8, 0x5353414c43464544, 0, 0, 0, 0⟩, ⟨11, 0x54534e4f43464544, 0x544e41, 0, 0, 0⟩,
  ⟨10, 0x52454e4547464544, 0x4349, 0, 0, 0⟩,
  ⟨21, 0x432d454e49464544, 0x2d52454c49504d4f, 0x4f5243414d, 0, 0⟩,
  ⟨16, 0x432d454e49464544, 0x4e4f495449444e4f, 0, 0, 0⟩,
  ⟨25, 0x4d2d454e49464544, 0x4f432d444f485445, 0x4f4954414e49424d, 0x4e, 0⟩,
  ⟨19, 0x4d2d454e49464544, 0x414d2d594649444f, 0x4f5243, 0, 0⟩,
  ⟨20, 0x532d454e49464544, 0x415058452d465445, 0x5245444e, 0, 0⟩]

def seedCommonLisp9 : List SeedWords := [
  ⟨19, 0x532d454e49464544, 0x414d2d4c4f424d59, 0x4f5243, 0, 0⟩,
  ⟨8, 0x4f5243414d464544, 0, 0, 0, 0⟩, ⟨9, 0x4f4854454d464544, 0x44, 0, 0, 0⟩,
  ⟨10, 0x414b434150464544, 0x4547, 0, 0, 0⟩, ⟨12, 0x4d41524150464544, 0x52455445, 0, 0, 0⟩,
  ⟨7, 0x46544553464544, 0, 0, 0, 0⟩, ⟨9, 0x4355525453464544, 0x54, 0, 0, 0⟩,
  ⟨7, 0x45505954464544, 0, 0, 0, 0⟩, ⟨5, 0x4e55464544, 0, 0, 0, 0⟩,
  ⟨6, 0x524156464544, 0, 0, 0, 0⟩, ⟨6, 0x4554454c4544, 0, 0, 0, 0⟩,
  ⟨17, 0x442d4554454c4544, 0x45544143494c5055, 0x53, 0, 0⟩,
  ⟨11, 0x462d4554454c4544, 0x454c49, 0, 0, 0⟩, ⟨9, 0x492d4554454c4544, 0x46, 0, 0, 0⟩,
  ⟨13, 0x492d4554454c4544, 0x544f4e2d46, 0, 0, 0⟩,
  ⟨14, 0x502d4554454c4544, 0x4547414b4341, 0, 0, 0⟩, ⟨11, 0x414e494d4f4e4544, 0x524f54, 0, 0, 0⟩,
  ⟨13, 0x2d5449534f504544, 0x444c454946, 0, 0, 0⟩, ⟨8, 0x4542495243534544, 0, 0, 0, 0⟩,
  ⟨15, 0x4542495243534544, 0x5443454a424f2d, 0, 0, 0⟩,
  ⟨18, 0x5443555254534544, 0x49422d474e495255, 0x444e, 0, 0⟩,
  ⟨10, 0x48432d5449474944, 0x5241, 0, 0, 0⟩, ⟨12, 0x48432d5449474944, 0x502d5241, 0, 0, 0⟩,
  ⟨9, 0x524f544345524944, 0x59, 0, 0, 0⟩,
  ⟨20, 0x524f544345524944, 0x5453454d414e2d59, 0x474e4952, 0, 0⟩,
  ⟨11, 0x4d45535341534944, 0x454c42, 0, 0, 0⟩,
  ⟨16, 0x4e4f495349564944, 0x4f52455a2d59422d, 0, 0, 0⟩, ⟨2, 0x4f44, 0, 0, 0, 0⟩,
  ⟨3, 0x2a4f44, 0, 0, 0, 0⟩, ⟨14, 0x532d4c4c412d4f44, 0x534c4f424d59, 0, 0, 0⟩,
  ⟨19, 0x52455458452d4f44, 0x424d59532d4c414e, 0x534c4f, 0, 0⟩,
  ⟨10, 0x4f424d59532d4f44, 0x534c, 0, 0, 0⟩]

def seedCommonLisp10 : List SeedWords := [
  ⟨13, 0x544e454d55434f44, 0x4e4f495441, 0, 0, 0⟩, ⟨6, 0x5453494c4f44, 0, 0, 0, 0⟩,
  ⟨7, 0x53454d49544f44, 0, 0, 0, 0⟩, ⟨12, 0x462d454c42554f44, 0x54414f4c, 0, 0, 0⟩,
  ⟨20, 0x462d454c42554f44, 0x5350452d54414f4c, 0x4e4f4c49, 0, 0⟩,
  ⟨29, 0x462d454c42554f44, 0x47454e2d54414f4c, 0x50452d4556495441, 0x4e4f4c4953, 0⟩,
  ⟨3, 0x425044, 0, 0, 0, 0⟩, ⟨7, 0x454c4242495244, 0, 0, 0, 0⟩,
  ⟨14, 0x2d43494d414e5944, 0x544e45545845, 0, 0, 0⟩, ⟨5, 0x4553414345, 0, 0, 0, 0⟩,
  ⟨11, 0x5254532d4f484345, 0x4d4145, 0, 0, 0⟩,
  ⟨24, 0x5254532d4f484345, 0x55504e492d4d4145, 0x4d41455254532d54, 0, 0⟩,
  ⟨25, 0x5254532d4f484345, 0x5054554f2d4d4145, 0x41455254532d5455, 0x4d, 0⟩,
  ⟨2, 0x4445, 0, 0, 0, 0⟩, ⟨6, 0x485448474945, 0, 0, 0, 0⟩, ⟨3, 0x544c45, 0, 0, 0, 0⟩,
  ⟨21, 0x552d45444f434e45, 0x4c4153524556494e, 0x454d49542d, 0, 0⟩,
  ⟨11, 0x462d464f2d444e45, 0x454c49, 0, 0, 0⟩, ⟨4, 0x50444e45, 0, 0, 0, 0⟩,
  ⟨17, 0x4e2d4847554f4e45, 0x4e49525453454d41, 0x47, 0, 0⟩,
  ⟨24, 0x442d455255534e45, 0x49524f5443455249, 0x54534958452d5345, 0, 0⟩,
  ⟨23, 0x472d455255534e45, 0x462d434952454e45, 0x4e4f4954434e55, 0, 0⟩, ⟨2, 0x5145, 0, 0, 0, 0⟩,
  ⟨3, 0x4c5145, 0, 0, 0, 0⟩, ⟨5, 0x4c41555145, 0, 0, 0, 0⟩, ⟨6, 0x504c41555145, 0, 0, 0, 0⟩,
  ⟨5, 0x524f525245, 0, 0, 0, 0⟩, ⟨9, 0x5341434550595445, 0x45, 0, 0, 0⟩,
  ⟨4, 0x4c415645, 0, 0, 0, 0⟩, ⟨9, 0x4548572d4c415645, 0x4e, 0, 0, 0⟩,
  ⟨5, 0x504e455645, 0, 0, 0, 0⟩, ⟨5, 0x5952455645, 0, 0, 0, 0⟩]

def seedCommonLisp11 : List SeedWords := [
  ⟨3, 0x505845, 0, 0, 0, 0⟩, ⟨6, 0x54524f505845, 0, 0, 0, 0⟩, ⟨4, 0x54505845, 0, 0, 0, 0⟩,
  ⟨13, 0x4445444e45545845, 0x524148432d, 0, 0, 0⟩, ⟨7, 0x50444e554f4246, 0, 0, 0, 0⟩,
  ⟨8, 0x474e494c49454346, 0, 0, 0, 0⟩, ⟨11, 0x54494e4946454446, 0x4e4f49, 0, 0, 0⟩,
  ⟨6, 0x524f4f4c4646, 0, 0, 0, 0⟩, ⟨5, 0x4854464946, 0, 0, 0, 0⟩,
  ⟨11, 0x5455412d454c4946, 0x524f48, 0, 0, 0⟩, ⟨10, 0x5252452d454c4946, 0x524f, 0, 0, 0⟩,
  ⟨19, 0x5252452d454c4946, 0x4e485441502d524f, 0x454d41, 0, 0⟩,
  ⟨11, 0x4e454c2d454c4946, 0x485447, 0, 0, 0⟩, ⟨15, 0x4d414e2d454c4946, 0x474e4952545345, 0, 0, 0⟩,
  ⟨13, 0x534f502d454c4946, 0x4e4f495449, 0, 0, 0⟩, ⟨11, 0x5254532d454c4946, 0x4d4145, 0, 0, 0⟩,
  ⟨18, 0x5254532d454c4946, 0x474e454c2d474e49, 0x4854, 0, 0⟩,
  ⟨15, 0x4952572d454c4946, 0x455441442d4554, 0, 0, 0⟩, ⟨4, 0x4c4c4946, 0, 0, 0, 0⟩,
  ⟨12, 0x494f502d4c4c4946, 0x5245544e, 0, 0, 0⟩, ⟨4, 0x444e4946, 0, 0, 0, 0⟩,
  ⟨16, 0x4c4c412d444e4946, 0x534c4f424d59532d, 0, 0, 0⟩, ⟨10, 0x414c432d444e4946, 0x5353, 0, 0, 0⟩,
  ⟨7, 0x46492d444e4946, 0, 0, 0, 0⟩, ⟨11, 0x2d46492d444e4946, 0x544f4e, 0, 0, 0⟩,
  ⟨11, 0x54454d2d444e4946, 0x444f48, 0, 0, 0⟩, ⟨12, 0x4341502d444e4946, 0x4547414b, 0, 0, 0⟩,
  ⟨12, 0x5345522d444e4946, 0x54524154, 0, 0, 0⟩, ⟨11, 0x4d59532d444e4946, 0x4c4f42, 0, 0, 0⟩,
  ⟨13, 0x4f2d4853494e4946, 0x5455505455, 0, 0, 0⟩, ⟨5, 0x5453524946, 0, 0, 0, 0⟩,
  ⟨6, 0x4d554e584946, 0, 0, 0, 0⟩]

def seedCommonLisp12 : List SeedWords := [
  ⟨4, 0x54454c46, 0, 0, 0, 0⟩, ⟨5, 0x54414f4c46, 0, 0, 0, 0⟩,
  ⟨12, 0x49442d54414f4c46, 0x53544947, 0, 0, 0⟩,
  ⟨15, 0x52502d54414f4c46, 0x4e4f4953494345, 0, 0, 0⟩, ⟨11, 0x41522d54414f4c46, 0x584944, 0, 0, 0⟩,
  ⟨10, 0x49532d54414f4c46, 0x4e47, 0, 0, 0⟩,
  ⟨22, 0x474e4954414f4c46, 0x492d544e494f502d, 0x54434158454e, 0, 0⟩,
  ⟨32, 0x474e4954414f4c46, 0x492d544e494f502d, 0x4f2d44494c41564e, 0x4e4f495441524550, 0⟩,
  ⟨23, 0x474e4954414f4c46, 0x4f2d544e494f502d, 0x574f4c46524556, 0, 0⟩,
  ⟨24, 0x474e4954414f4c46, 0x552d544e494f502d, 0x574f4c465245444e, 0, 0⟩,
  ⟨6, 0x5054414f4c46, 0, 0, 0, 0⟩, ⟨5, 0x524f4f4c46, 0, 0, 0, 0⟩,
  ⟨11, 0x4f424e554b414d46, 0x444e55, 0, 0, 0⟩, ⟨12, 0x554f2d4543524f46, 0x54555054, 0, 0, 0⟩,
  ⟨6, 0x54414d524f46, 0, 0, 0, 0⟩, ⟨9, 0x455454414d524f46, 0x52, 0, 0, 0⟩,
  ⟨6, 0x485452554f46, 0, 0, 0, 0⟩, ⟨10, 0x494c2d4853455246, 0x454e, 0, 0, 0⟩,
  ⟨6, 0x444e554f5246, 0, 0, 0, 0⟩, ⟨9, 0x5441434e55525446, 0x45, 0, 0, 0⟩,
  ⟨5, 0x4550595446, 0, 0, 0, 0⟩, ⟨7, 0x4c4c41434e5546, 0, 0, 0, 0⟩,
  ⟨8, 0x4e4f4954434e5546, 0, 0, 0, 0⟩, ⟨17, 0x4e4f4954434e5546, 0x44524f5759454b2d, 0x53, 0, 0⟩,
  ⟨26, 0x4e4f4954434e5546, 0x2d4144424d414c2d, 0x4953534552505845, 0x4e4f, 0⟩,
  ⟨9, 0x4e4f4954434e5546, 0x50, 0, 0, 0⟩, ⟨3, 0x444347, 0, 0, 0, 0⟩,
  ⟨16, 0x2d434952454e4547, 0x4e4f4954434e5546, 0, 0, 0⟩, ⟨6, 0x4d59534e4547, 0, 0, 0, 0⟩,
  ⟨7, 0x504d45544e4547, 0, 0, 0, 0⟩, ⟨3, 0x544547, 0, 0, 0, 0⟩,
  ⟨16, 0x4f4345442d544547, 0x454d49542d444544, 0, 0, 0⟩]

def seedCommonLisp13 : List SeedWords := [
  ⟨28, 0x505349442d544547, 0x43414d2d48435441, 0x41524148432d4f52, 0x52455443, 0⟩,
  ⟨22, 0x45544e492d544547, 0x4145522d4c414e52, 0x454d49542d4c, 0, 0⟩,
  ⟨21, 0x45544e492d544547, 0x4e55522d4c414e52, 0x454d49542d, 0, 0⟩,
  ⟨19, 0x5243414d2d544547, 0x4341524148432d4f, 0x524554, 0, 0⟩,
  ⟨24, 0x5054554f2d544547, 0x41455254532d5455, 0x474e495254532d4d, 0, 0⟩,
  ⟨14, 0x504f52502d544547, 0x534549545245, 0, 0, 0⟩,
  ⟨18, 0x465445532d544547, 0x49534e415058452d, 0x4e4f, 0, 0⟩,
  ⟨18, 0x56494e552d544547, 0x49542d4c41535245, 0x454d, 0, 0⟩, ⟨4, 0x46544547, 0, 0, 0, 0⟩,
  ⟨7, 0x48534148544547, 0, 0, 0, 0⟩, ⟨2, 0x4f47, 0, 0, 0, 0⟩,
  ⟨14, 0x2d43494850415247, 0x502d52414843, 0, 0, 0⟩, ⟨12, 0x2d52454c444e4148, 0x444e4942, 0, 0, 0⟩,
  ⟨12, 0x2d52454c444e4148, 0x45534143, 0, 0, 0⟩, ⟨10, 0x4241542d48534148, 0x454c, 0, 0, 0⟩,
  ⟨16, 0x4241542d48534148, 0x544e554f432d454c, 0, 0, 0⟩,
  ⟨12, 0x4241542d48534148, 0x502d454c, 0, 0, 0⟩,
  ⟨22, 0x4241542d48534148, 0x53414845522d454c, 0x455a49532d48, 0, 0⟩,
  ⟨27, 0x4241542d48534148, 0x53414845522d454c, 0x4853455248542d48, 0x444c4f, 0⟩,
  ⟨15, 0x4241542d48534148, 0x455a49532d454c, 0, 0, 0⟩,
  ⟨15, 0x4241542d48534148, 0x545345542d454c, 0, 0, 0⟩,
  ⟨15, 0x4d414e2d54534f48, 0x474e4952545345, 0, 0, 0⟩, ⟨8, 0x595449544e454449, 0, 0, 0, 0⟩,
  ⟨2, 0x4649, 0, 0, 0, 0⟩, ⟨9, 0x4c4241524f4e4749, 0x45, 0, 0, 0⟩, ⟨6, 0x45524f4e4749, 0, 0, 0, 0⟩,
  ⟨13, 0x452d45524f4e4749, 0x53524f5252, 0, 0, 0⟩, ⟨8, 0x5452415047414d49, 0, 0, 0, 0⟩,
  ⟨6, 0x54524f504d49, 0, 0, 0, 0⟩, ⟨10, 0x414b4341502d4e49, 0x4547, 0, 0, 0⟩,
  ⟨4, 0x46434e49, 0, 0, 0, 0⟩, ⟨19, 0x494c414954494e49, 0x4154534e492d455a, 0x45434e, 0, 0⟩]

def seedCommonLisp14 : List SeedWords := [
  ⟨6, 0x454e494c4e49, 0, 0, 0, 0⟩, ⟨14, 0x54532d5455504e49, 0x502d4d414552, 0, 0, 0⟩,
  ⟨7, 0x54434550534e49, 0, 0, 0, 0⟩, ⟨7, 0x52454745544e49, 0, 0, 0, 0⟩,
  ⟨20, 0x2d52454745544e49, 0x462d45444f434544, 0x54414f4c, 0, 0⟩,
  ⟨14, 0x2d52454745544e49, 0x4854474e454c, 0, 0, 0⟩, ⟨8, 0x5052454745544e49, 0, 0, 0, 0⟩,
  ⟨20, 0x5443415245544e49, 0x455254532d455649, 0x502d4d41, 0, 0⟩, ⟨6, 0x4e5245544e49, 0, 0, 0, 0⟩,
  ⟨30, 0x4c414e5245544e49, 0x4e552d454d49542d, 0x2d5245502d535449, 0x444e4f434553, 0⟩,
  ⟨12, 0x4345535245544e49, 0x4e4f4954, 0, 0, 0⟩,
  ⟨20, 0x2d44494c41564e49, 0x452d444f4854454d, 0x524f5252, 0, 0⟩,
  ⟨15, 0x442d454b4f564e49, 0x52454747554245, 0, 0, 0⟩,
  ⟨14, 0x522d454b4f564e49, 0x545241545345, 0, 0, 0⟩,
  ⟨28, 0x522d454b4f564e49, 0x492d545241545345, 0x495443415245544e, 0x594c4556, 0⟩,
  ⟨5, 0x5452515349, 0, 0, 0, 0⟩, ⟨7, 0x44524f5759454b, 0, 0, 0, 0⟩,
  ⟨8, 0x5044524f5759454b, 0, 0, 0, 0⟩, ⟨6, 0x534c4542414c, 0, 0, 0, 0⟩,
  ⟨6, 0x4144424d414c, 0, 0, 0, 0⟩, ⟨20, 0x4c2d4144424d414c, 0x5759454b2d545349, 0x5344524f, 0, 0⟩,
  ⟨23, 0x502d4144424d414c, 0x524554454d415241, 0x54494d494c2d53, 0, 0⟩,
  ⟨4, 0x5453414c, 0, 0, 0, 0⟩, ⟨3, 0x4d434c, 0, 0, 0, 0⟩, ⟨3, 0x42444c, 0, 0, 0, 0⟩,
  ⟨8, 0x545345542d42444c, 0, 0, 0, 0⟩, ⟨5, 0x464649444c, 0, 0, 0, 0⟩,
  ⟨27, 0x454e2d545341454c, 0x442d455649544147, 0x4c462d454c42554f, 0x54414f, 0⟩,
  ⟨25, 0x454e2d545341454c, 0x4c2d455649544147, 0x414f4c462d474e4f, 0x54, 0⟩,
  ⟨38, 0x454e2d545341454c, 0x4e2d455649544147, 0x455a494c414d524f, 0x454c42554f442d44, 0x54414f4c462d⟩,
  ⟨36, 0x454e2d545341454c, 0x4e2d455649544147, 0x455a494c414d524f, 0x462d474e4f4c2d44, 0x54414f4c⟩,
  ⟨37, 0x454e2d545341454c, 0x4e2d455649544147, 0x455a494c414d524f, 0x2d54524f48532d44, 0x54414f4c46⟩]

def seedCommonLisp15 : List SeedWords := [
  ⟨38, 0x454e2d545341454c, 0x4e2d455649544147, 0x455a494c414d524f, 0x454c474e49532d44, 0x54414f4c462d⟩,
  ⟨26, 0x454e2d545341454c, 0x532d455649544147, 0x4f4c462d54524f48, 0x5441, 0⟩,
  ⟨27, 0x454e2d545341454c, 0x532d455649544147, 0x4c462d454c474e49, 0x54414f, 0⟩,
  ⟨27, 0x4f502d545341454c, 0x442d455649544953, 0x4c462d454c42554f, 0x54414f, 0⟩,
  ⟨25, 0x4f502d545341454c, 0x4c2d455649544953, 0x414f4c462d474e4f, 0x54, 0⟩,
  ⟨38, 0x4f502d545341454c, 0x4e2d455649544953, 0x455a494c414d524f, 0x454c42554f442d44, 0x54414f4c462d⟩,
  ⟨36, 0x4f502d545341454c, 0x4e2d455649544953, 0x455a494c414d524f, 0x462d474e4f4c2d44, 0x54414f4c⟩,
  ⟨37, 0x4f502d545341454c, 0x4e2d455649544953, 0x455a494c414d524f, 0x2d54524f48532d44, 0x54414f4c46⟩,
  ⟨38, 0x4f502d545341454c, 0x4e2d455649544953, 0x455a494c414d524f, 0x454c474e49532d44, 0x54414f4c462d⟩,
  ⟨26, 0x4f502d545341454c, 0x532d455649544953, 0x4f4c462d54524f48, 0x5441, 0⟩,
  ⟨27, 0x4f502d545341454c, 0x532d455649544953, 0x4c462d454c474e49, 0x54414f, 0⟩,
  ⟨6, 0x4854474e454c, 0, 0, 0, 0⟩, ⟨3, 0x54454c, 0, 0, 0, 0⟩, ⟨4, 0x2a54454c, 0, 0, 0, 0⟩,
  ⟨24, 0x504d492d5053494c, 0x5441544e454d454c, 0x455059542d4e4f49, 0, 0⟩,
  ⟨27, 0x504d492d5053494c, 0x5441544e454d454c, 0x535245562d4e4f49, 0x4e4f49, 0⟩,
  ⟨4, 0x5453494c, 0, 0, 0, 0⟩, ⟨5, 0x2a5453494c, 0, 0, 0, 0⟩,
  ⟨17, 0x4c4c412d5453494c, 0x4547414b4341502d, 0x53, 0, 0⟩,
  ⟨11, 0x4e454c2d5453494c, 0x485447, 0, 0, 0⟩, ⟨6, 0x4e455453494c, 0, 0, 0, 0⟩,
  ⟨5, 0x505453494c, 0, 0, 0, 0⟩, ⟨4, 0x44414f4c, 0, 0, 0, 0⟩,
  ⟨34, 0x474f4c2d44414f4c, 0x5441502d4c414349, 0x52542d454d414e48, 0x4f4954414c534e41, 0x534e⟩,
  ⟨15, 0x4d49542d44414f4c, 0x45554c41562d45, 0, 0, 0⟩, ⟨7, 0x594c4c41434f4c, 0, 0, 0, 0⟩,
  ⟨3, 0x474f4c, 0, 0, 0, 0⟩, ⟨6, 0x444e41474f4c, 0, 0, 0, 0⟩, ⟨8, 0x3143444e41474f4c, 0, 0, 0, 0⟩,
  ⟨8, 0x3243444e41474f4c, 0, 0, 0, 0⟩, ⟨7, 0x50544942474f4c, 0, 0, 0, 0⟩,
  ⟨8, 0x544e554f43474f4c, 0, 0, 0, 0⟩]

def seedCommonLisp16 : List SeedWords := [
  ⟨6, 0x565145474f4c, 0, 0, 0, 0⟩, ⟨16, 0x2d4c414349474f4c, 0x454d414e48544150, 0, 0, 0⟩,
  ⟨29, 0x2d4c414349474f4c, 0x454d414e48544150, 0x414c534e4152542d, 0x534e4f4954, 0⟩,
  ⟨6, 0x524f49474f4c, 0, 0, 0, 0⟩, ⟨7, 0x444e414e474f4c, 0, 0, 0, 0⟩,
  ⟨6, 0x524f4e474f4c, 0, 0, 0, 0⟩, ⟨6, 0x544f4e474f4c, 0, 0, 0, 0⟩,
  ⟨7, 0x3143524f474f4c, 0, 0, 0, 0⟩, ⟨7, 0x3243524f474f4c, 0, 0, 0, 0⟩,
  ⟨7, 0x54534554474f4c, 0, 0, 0, 0⟩, ⟨6, 0x524f58474f4c, 0, 0, 0, 0⟩,
  ⟨10, 0x4f4c462d474e4f4c, 0x5441, 0, 0, 0⟩,
  ⟨18, 0x4f4c462d474e4f4c, 0x4c495350452d5441, 0x4e4f, 0, 0⟩,
  ⟨27, 0x4f4c462d474e4f4c, 0x544147454e2d5441, 0x495350452d455649, 0x4e4f4c, 0⟩,
  ⟨14, 0x5449532d474e4f4c, 0x454d414e2d45, 0, 0, 0⟩, ⟨4, 0x504f4f4c, 0, 0, 0, 0⟩,
  ⟨11, 0x4e49462d504f4f4c, 0x485349, 0, 0, 0⟩, ⟨12, 0x41432d5245574f4c, 0x502d4553, 0, 0, 0⟩,
  ⟨16, 0x2d454e494843414d, 0x45434e4154534e49, 0, 0, 0⟩,
  ⟨12, 0x2d454e494843414d, 0x45505954, 0, 0, 0⟩,
  ⟨15, 0x2d454e494843414d, 0x4e4f4953524556, 0, 0, 0⟩,
  ⟨14, 0x55462d4f5243414d, 0x4e4f4954434e, 0, 0, 0⟩, ⟨11, 0x5058454f5243414d, 0x444e41, 0, 0, 0⟩,
  ⟨13, 0x5058454f5243414d, 0x312d444e41, 0, 0, 0⟩, ⟨8, 0x54454c4f5243414d, 0, 0, 0, 0⟩,
  ⟨10, 0x5252412d454b414d, 0x5941, 0, 0, 0⟩,
  ⟨21, 0x4f52422d454b414d, 0x532d545341434441, 0x4d41455254, 0, 0⟩,
  ⟨24, 0x4e4f432d454b414d, 0x4554414e45544143, 0x4d41455254532d44, 0, 0⟩,
  ⟨14, 0x4e4f432d454b414d, 0x4e4f49544944, 0, 0, 0⟩,
  ⟨29, 0x5349442d454b414d, 0x414d2d4843544150, 0x524148432d4f5243, 0x5245544341, 0⟩,
  ⟨16, 0x4843452d454b414d, 0x4d41455254532d4f, 0, 0, 0⟩,
  ⟨15, 0x5341482d454b414d, 0x454c4241542d48, 0, 0, 0⟩]

def seedCommonLisp17 : List SeedWords := [
  ⟨13, 0x534e492d454b414d, 0x45434e4154, 0, 0, 0⟩,
  ⟨23, 0x534e492d454b414d, 0x4f2d5345434e4154, 0x4554454c4f5342, 0, 0⟩,
  ⟨9, 0x53494c2d454b414d, 0x54, 0, 0, 0⟩, ⟨14, 0x414f4c2d454b414d, 0x4d524f462d44, 0, 0, 0⟩,
  ⟨27, 0x414f4c2d454b414d, 0x532d4d524f462d44, 0x4c532d474e495641, 0x53544f, 0⟩,
  ⟨11, 0x54454d2d454b414d, 0x444f48, 0, 0, 0⟩, ⟨12, 0x4341502d454b414d, 0x4547414b, 0, 0, 0⟩,
  ⟨13, 0x5441502d454b414d, 0x454d414e48, 0, 0, 0⟩,
  ⟨17, 0x4e41522d454b414d, 0x544154532d4d4f44, 0x45, 0, 0⟩,
  ⟨13, 0x5145532d454b414d, 0x45434e4555, 0, 0, 0⟩, ⟨11, 0x5254532d454b414d, 0x474e49, 0, 0, 0⟩,
  ⟨24, 0x5254532d454b414d, 0x55504e492d474e49, 0x4d41455254532d54, 0, 0⟩,
  ⟨25, 0x5254532d454b414d, 0x5054554f2d474e49, 0x41455254532d5455, 0x4d, 0⟩,
  ⟨11, 0x4d59532d454b414d, 0x4c4f42, 0, 0, 0⟩,
  ⟨19, 0x4e59532d454b414d, 0x5254532d4d594e4f, 0x4d4145, 0, 0⟩,
  ⟨19, 0x4f57542d454b414d, 0x5254532d5941572d, 0x4d4145, 0, 0⟩,
  ⟨10, 0x554f424e554b414d, 0x444e, 0, 0, 0⟩, ⟨3, 0x50414d, 0, 0, 0, 0⟩,
  ⟨8, 0x4f544e492d50414d, 0, 0, 0, 0⟩, ⟨4, 0x4350414d, 0, 0, 0, 0⟩,
  ⟨6, 0x4e414350414d, 0, 0, 0, 0⟩, ⟨6, 0x52414350414d, 0, 0, 0, 0⟩,
  ⟨6, 0x4e4f4350414d, 0, 0, 0, 0⟩, ⟨7, 0x4853414850414d, 0, 0, 0, 0⟩, ⟨4, 0x4c50414d, 0, 0, 0, 0⟩,
  ⟨7, 0x5453494c50414d, 0, 0, 0, 0⟩, ⟨10, 0x4549462d4b53414d, 0x444c, 0, 0, 0⟩,
  ⟨3, 0x58414d, 0, 0, 0, 0⟩, ⟨6, 0x5245424d454d, 0, 0, 0, 0⟩,
  ⟨9, 0x492d5245424d454d, 0x46, 0, 0, 0⟩, ⟨13, 0x492d5245424d454d, 0x544f4e2d46, 0, 0, 0⟩,
  ⟨5, 0x454752454d, 0, 0, 0, 0⟩]

def seedCommonLisp18 : List SeedWords := [
  ⟨15, 0x41502d454752454d, 0x53454d414e4854, 0, 0, 0⟩, ⟨6, 0x444f4854454d, 0, 0, 0, 0⟩,
  ⟨18, 0x432d444f4854454d, 0x4954414e49424d4f, 0x4e4f, 0, 0⟩,
  ⟨24, 0x432d444f4854454d, 0x4954414e49424d4f, 0x524f5252452d4e4f, 0, 0⟩,
  ⟨17, 0x512d444f4854454d, 0x52454946494c4155, 0x53, 0, 0⟩, ⟨3, 0x4e494d, 0, 0, 0, 0⟩,
  ⟨6, 0x5053554e494d, 0, 0, 0, 0⟩, ⟨8, 0x484354414d53494d, 0, 0, 0, 0⟩, ⟨3, 0x444f4d, 0, 0, 0, 0⟩,
  ⟨26, 0x47454e2d54534f4d, 0x4f442d4556495441, 0x4f4c462d454c4255, 0x5441, 0⟩,
  ⟨20, 0x47454e2d54534f4d, 0x49462d4556495441, 0x4d554e58, 0, 0⟩,
  ⟨24, 0x47454e2d54534f4d, 0x4f4c2d4556495441, 0x54414f4c462d474e, 0, 0⟩,
  ⟨25, 0x47454e2d54534f4d, 0x48532d4556495441, 0x414f4c462d54524f, 0x54, 0⟩,
  ⟨26, 0x47454e2d54534f4d, 0x49532d4556495441, 0x4f4c462d454c474e, 0x5441, 0⟩,
  ⟨26, 0x534f502d54534f4d, 0x4f442d4556495449, 0x4f4c462d454c4255, 0x5441, 0⟩,
  ⟨20, 0x534f502d54534f4d, 0x49462d4556495449, 0x4d554e58, 0, 0⟩,
  ⟨24, 0x534f502d54534f4d, 0x4f4c2d4556495449, 0x54414f4c462d474e, 0, 0⟩,
  ⟨25, 0x534f502d54534f4d, 0x48532d4556495449, 0x414f4c462d54524f, 0x54, 0⟩,
  ⟨26, 0x534f502d54534f4d, 0x49532d4556495449, 0x4f4c462d454c474e, 0x5441, 0⟩,
  ⟨14, 0x572d454c4646554d, 0x474e494e5241, 0, 0, 0⟩,
  ⟨19, 0x454c5049544c554d, 0x422d45554c41562d, 0x444e49, 0, 0⟩,
  ⟨19, 0x454c5049544c554d, 0x432d45554c41562d, 0x4c4c41, 0, 0⟩,
  ⟨19, 0x454c5049544c554d, 0x4c2d45554c41562d, 0x545349, 0, 0⟩,
  ⟨20, 0x454c5049544c554d, 0x502d45554c41562d, 0x31474f52, 0, 0⟩,
  ⟨19, 0x454c5049544c554d, 0x532d45554c41562d, 0x515445, 0, 0⟩,
  ⟨21, 0x454c5049544c554d, 0x2d5345554c41562d, 0x54494d494c, 0, 0⟩,
  ⟨9, 0x4148432d454d414e, 0x52, 0, 0, 0⟩, ⟨10, 0x49525453454d414e, 0x474e, 0, 0, 0⟩,
  ⟨8, 0x5453414c5455424e, 0, 0, 0, 0⟩, ⟨5, 0x434e4f434e, 0, 0, 0, 0⟩,
  ⟨13, 0x54454d2d5458454e, 0x502d444f48, 0, 0, 0⟩, ⟨3, 0x4c494e, 0, 0, 0, 0⟩]

def seedCommonLisp19 : List SeedWords := [
  ⟨13, 0x45535245544e494e, 0x4e4f495443, 0, 0, 0⟩, ⟨5, 0x48544e494e, 0, 0, 0, 0⟩,
  ⟨20, 0x494c5050412d4f4e, 0x454d2d454c424143, 0x444f4854, 0, 0⟩,
  ⟨14, 0x2d5458454e2d4f4e, 0x444f4854454d, 0, 0, 0⟩, ⟨3, 0x544f4e, 0, 0, 0, 0⟩,
  ⟨6, 0x594e41544f4e, 0, 0, 0, 0⟩, ⟨8, 0x5952455645544f4e, 0, 0, 0, 0⟩,
  ⟨9, 0x4e494c4e49544f4e, 0x45, 0, 0, 0⟩, ⟨7, 0x434e4f4345524e, 0, 0, 0, 0⟩,
  ⟨8, 0x455352455645524e, 0, 0, 0, 0⟩, ⟨15, 0x4649442d5445534e, 0x45434e45524546, 0, 0, 0⟩,
  ⟨17, 0x4358452d5445534e, 0x4f2d45564953554c, 0x52, 0, 0⟩,
  ⟨18, 0x2d474e495254534e, 0x494c415449504143, 0x455a, 0, 0⟩,
  ⟨16, 0x2d474e495254534e, 0x455341434e574f44, 0, 0, 0⟩,
  ⟨14, 0x2d474e495254534e, 0x455341435055, 0, 0, 0⟩, ⟨7, 0x53494c4255534e, 0, 0, 0, 0⟩,
  ⟨6, 0x54534255534e, 0, 0, 0, 0⟩, ⟨9, 0x492d54534255534e, 0x46, 0, 0, 0⟩,
  ⟨13, 0x492d54534255534e, 0x544f4e2d46, 0, 0, 0⟩, ⟨11, 0x544954534255534e, 0x455455, 0, 0, 0⟩,
  ⟨14, 0x544954534255534e, 0x46492d455455, 0, 0, 0⟩,
  ⟨18, 0x544954534255534e, 0x4e2d46492d455455, 0x544f, 0, 0⟩, ⟨3, 0x48544e, 0, 0, 0, 0⟩,
  ⟨9, 0x554c41562d48544e, 0x45, 0, 0, 0⟩, ⟨6, 0x52444348544e, 0, 0, 0, 0⟩,
  ⟨4, 0x4c4c554e, 0, 0, 0, 0⟩, ⟨6, 0x5245424d554e, 0, 0, 0, 0⟩, ⟨7, 0x505245424d554e, 0, 0, 0, 0⟩,
  ⟨9, 0x4f544152454d554e, 0x52, 0, 0, 0⟩, ⟨6, 0x4e4f494e554e, 0, 0, 0, 0⟩,
  ⟨4, 0x5044444f, 0, 0, 0, 0⟩, ⟨4, 0x4e45504f, 0, 0, 0, 0⟩]

def seedCommonLisp20 : List SeedWords := [
  ⟨13, 0x5254532d4e45504f, 0x502d4d4145, 0, 0, 0⟩, ⟨8, 0x455a494d4954504f, 0, 0, 0, 0⟩,
  ⟨2, 0x524f, 0, 0, 0, 0⟩, ⟨9, 0x534957524548544f, 0x45, 0, 0, 0⟩,
  ⟨15, 0x532d54555054554f, 0x502d4d41455254, 0, 0, 0⟩, ⟨7, 0x4547414b434150, 0, 0, 0, 0⟩,
  ⟨13, 0x2d4547414b434150, 0x524f525245, 0, 0, 0⟩,
  ⟨21, 0x2d4547414b434150, 0x41502d524f525245, 0x4547414b43, 0, 0⟩,
  ⟨12, 0x2d4547414b434150, 0x454d414e, 0, 0, 0⟩,
  ⟨17, 0x2d4547414b434150, 0x454d414e4b43494e, 0x53, 0, 0⟩,
  ⟨25, 0x2d4547414b434150, 0x4e49574f44414853, 0x4c4f424d59532d47, 0x53, 0⟩,
  ⟨16, 0x2d4547414b434150, 0x5453494c2d455355, 0, 0, 0⟩,
  ⟨20, 0x2d4547414b434150, 0x2d59422d44455355, 0x5453494c, 0, 0⟩,
  ⟨8, 0x504547414b434150, 0, 0, 0, 0⟩, ⟨7, 0x53494c52494150, 0, 0, 0, 0⟩,
  ⟨11, 0x52452d4553524150, 0x524f52, 0, 0, 0⟩, ⟨13, 0x4e492d4553524150, 0x5245474554, 0, 0, 0⟩,
  ⟨16, 0x414e2d4553524150, 0x474e49525453454d, 0, 0, 0⟩, ⟨8, 0x454d414e48544150, 0, 0, 0, 0⟩,
  ⟨15, 0x454d414e48544150, 0x4543495645442d, 0, 0, 0⟩,
  ⟨18, 0x454d414e48544150, 0x4f5443455249442d, 0x5952, 0, 0⟩,
  ⟨13, 0x454d414e48544150, 0x54534f482d, 0, 0, 0⟩,
  ⟨16, 0x454d414e48544150, 0x502d484354414d2d, 0, 0, 0⟩,
  ⟨13, 0x454d414e48544150, 0x454d414e2d, 0, 0, 0⟩, ⟨13, 0x454d414e48544150, 0x455059542d, 0, 0, 0⟩,
  ⟨16, 0x454d414e48544150, 0x4e4f49535245562d, 0, 0, 0⟩, ⟨9, 0x454d414e48544150, 0x50, 0, 0, 0⟩,
  ⟨9, 0x4148432d4b454550, 0x52, 0, 0, 0⟩, ⟨5, 0x4553414850, 0, 0, 0, 0⟩, ⟨2, 0x4950, 0, 0, 0, 0⟩,
  ⟨5, 0x5053554c50, 0, 0, 0, 0⟩, ⟨3, 0x504f50, 0, 0, 0, 0⟩]

def seedCommonLisp21 : List SeedWords := [
  ⟨8, 0x4e4f495449534f50, 0, 0, 0, 0⟩, ⟨11, 0x4e4f495449534f50, 0x46492d, 0, 0, 0⟩,
  ⟨15, 0x4e4f495449534f50, 0x544f4e2d46492d, 0, 0, 0⟩, ⟨6, 0x544e49525050, 0, 0, 0, 0⟩,
  ⟨15, 0x442d544e49525050, 0x48435441505349, 0, 0, 0⟩,
  ⟨29, 0x452d544e49525050, 0x4c2d46492d544958, 0x414858452d545349, 0x4445545355, 0⟩,
  ⟨11, 0x462d544e49525050, 0x4c4c49, 0, 0, 0⟩, ⟨13, 0x492d544e49525050, 0x544e45444e, 0, 0, 0⟩,
  ⟨13, 0x4c2d544e49525050, 0x5241454e49, 0, 0, 0⟩,
  ⟨20, 0x4c2d544e49525050, 0x422d4c414349474f, 0x4b434f4c, 0, 0⟩,
  ⟨14, 0x4e2d544e49525050, 0x454e494c5745, 0, 0, 0⟩, ⟨10, 0x502d544e49525050, 0x504f, 0, 0, 0⟩,
  ⟨10, 0x542d544e49525050, 0x4241, 0, 0, 0⟩, ⟨14, 0x542d544e49525050, 0x52414c554241, 0, 0, 0⟩,
  ⟨5, 0x314e495250, 0, 0, 0, 0⟩, ⟨15, 0x4f542d314e495250, 0x474e495254532d, 0, 0, 0⟩,
  ⟨5, 0x434e495250, 0, 0, 0, 0⟩, ⟨15, 0x4f542d434e495250, 0x474e495254532d, 0, 0, 0⟩,
  ⟨5, 0x544e495250, 0, 0, 0, 0⟩, ⟨18, 0x4f4e2d544e495250, 0x4241444145522d54, 0x454c, 0, 0⟩,
  ⟨25, 0x4f4e2d544e495250, 0x4241444145522d54, 0x43454a424f2d454c, 0x54, 0⟩,
  ⟨12, 0x424f2d544e495250, 0x5443454a, 0, 0, 0⟩,
  ⟨23, 0x4e552d544e495250, 0x454c424144414552, 0x5443454a424f2d, 0, 0⟩,
  ⟨10, 0x49462d45424f5250, 0x454c, 0, 0, 0⟩, ⟨8, 0x4d49414c434f5250, 0, 0, 0, 0⟩,
  ⟨4, 0x474f5250, 0, 0, 0, 0⟩, ⟨5, 0x2a474f5250, 0, 0, 0, 0⟩, ⟨5, 0x31474f5250, 0, 0, 0, 0⟩,
  ⟨5, 0x32474f5250, 0, 0, 0, 0⟩, ⟨5, 0x4e474f5250, 0, 0, 0, 0⟩,
  ⟨13, 0x2d4d4152474f5250, 0x524f525245, 0, 0, 0⟩, ⟨5, 0x56474f5250, 0, 0, 0, 0⟩]

def seedCommonLisp22 : List SeedWords := [
  ⟨7, 0x454449564f5250, 0, 0, 0, 0⟩, ⟨5, 0x4654455350, 0, 0, 0, 0⟩, ⟨5, 0x5154455350, 0, 0, 0, 0⟩,
  ⟨4, 0x48535550, 0, 0, 0, 0⟩, ⟨7, 0x57454e48535550, 0, 0, 0, 0⟩, ⟨5, 0x45544f5551, 0, 0, 0, 0⟩,
  ⟨6, 0x4d4f444e4152, 0, 0, 0, 0⟩, ⟨12, 0x532d4d4f444e4152, 0x45544154, 0, 0, 0⟩,
  ⟨14, 0x532d4d4f444e4152, 0x502d45544154, 0, 0, 0⟩, ⟨6, 0x434f53534152, 0, 0, 0, 0⟩,
  ⟨9, 0x492d434f53534152, 0x46, 0, 0, 0⟩, ⟨13, 0x492d434f53534152, 0x544f4e2d46, 0, 0, 0⟩,
  ⟨5, 0x4f49544152, 0, 0, 0, 0⟩, ⟨8, 0x4c414e4f49544152, 0, 0, 0, 0⟩,
  ⟨11, 0x4c414e4f49544152, 0x455a49, 0, 0, 0⟩, ⟨9, 0x4c414e4f49544152, 0x50, 0, 0, 0⟩,
  ⟨4, 0x44414552, 0, 0, 0, 0⟩, ⟨9, 0x5459422d44414552, 0x45, 0, 0, 0⟩,
  ⟨9, 0x4148432d44414552, 0x52, 0, 0, 0⟩, ⟨17, 0x4148432d44414552, 0x4e41482d4f4e2d52, 0x47, 0, 0⟩,
  ⟨19, 0x4c45442d44414552, 0x4c2d444554494d49, 0x545349, 0, 0⟩,
  ⟨16, 0x4f52462d44414552, 0x474e495254532d4d, 0, 0, 0⟩, ⟨9, 0x4e494c2d44414552, 0x45, 0, 0, 0⟩,
  ⟨26, 0x4552502d44414552, 0x2d474e4956524553, 0x4150534554494857, 0x4543, 0⟩,
  ⟨13, 0x5145532d44414552, 0x45434e4555, 0, 0, 0⟩, ⟨12, 0x452d524544414552, 0x524f5252, 0, 0, 0⟩,
  ⟨9, 0x4c42415444414552, 0x45, 0, 0, 0⟩, ⟨14, 0x4c42415444414552, 0x455341432d45, 0, 0, 0⟩,
  ⟨10, 0x4c42415444414552, 0x5045, 0, 0, 0⟩, ⟨4, 0x4c414552, 0, 0, 0, 0⟩,
  ⟨5, 0x504c414552, 0, 0, 0, 0⟩, ⟨8, 0x545241504c414552, 0, 0, 0, 0⟩]

def seedCommonLisp23 : List SeedWords := [
  ⟨6, 0x454355444552, 0, 0, 0, 0⟩,
  ⟨21, 0x414954494e494552, 0x534e492d455a494c, 0x45434e4154, 0, 0⟩, ⟨3, 0x4d4552, 0, 0, 0, 0⟩,
  ⟨4, 0x464d4552, 0, 0, 0, 0⟩, ⟨7, 0x485341484d4552, 0, 0, 0, 0⟩, ⟨6, 0x45564f4d4552, 0, 0, 0, 0⟩,
  ⟨17, 0x442d45564f4d4552, 0x45544143494c5055, 0x53, 0, 0⟩, ⟨9, 0x492d45564f4d4552, 0x46, 0, 0, 0⟩,
  ⟨13, 0x492d45564f4d4552, 0x544f4e2d46, 0, 0, 0⟩, ⟨13, 0x4d2d45564f4d4552, 0x444f485445, 0, 0, 0⟩,
  ⟨7, 0x504f52504d4552, 0, 0, 0, 0⟩, ⟨11, 0x462d454d414e4552, 0x454c49, 0, 0, 0⟩,
  ⟨14, 0x502d454d414e4552, 0x4547414b4341, 0, 0, 0⟩, ⟨7, 0x4543414c504552, 0, 0, 0, 0⟩,
  ⟨7, 0x45524955514552, 0, 0, 0, 0⟩, ⟨4, 0x54534552, 0, 0, 0, 0⟩,
  ⟨7, 0x54524154534552, 0, 0, 0, 0⟩, ⟨12, 0x2d54524154534552, 0x444e4942, 0, 0, 0⟩,
  ⟨12, 0x2d54524154534552, 0x45534143, 0, 0, 0⟩, ⟨12, 0x2d54524154534552, 0x454d414e, 0, 0, 0⟩,
  ⟨6, 0x4e5255544552, 0, 0, 0, 0⟩, ⟨11, 0x462d4e5255544552, 0x4d4f52, 0, 0, 0⟩,
  ⟨9, 0x4e45505041564552, 0x44, 0, 0, 0⟩, ⟨7, 0x45535245564552, 0, 0, 0, 0⟩,
  ⟨4, 0x4d4f4f52, 0, 0, 0, 0⟩, ⟨7, 0x46455441544f52, 0, 0, 0, 0⟩, ⟨5, 0x444e554f52, 0, 0, 0, 0⟩,
  ⟨14, 0x4f4a414d2d574f52, 0x464552412d52, 0, 0, 0⟩, ⟨6, 0x4143414c5052, 0, 0, 0, 0⟩,
  ⟨6, 0x4443414c5052, 0, 0, 0, 0⟩, ⟨6, 0x595445464153, 0, 0, 0, 0⟩,
  ⟨9, 0x4549465349544153, 0x53, 0, 0, 0⟩]

def seedCommonLisp24 : List SeedWords := [
  ⟨4, 0x54494253, 0, 0, 0, 0⟩, ⟨11, 0x4c462d454c414353, 0x54414f, 0, 0, 0⟩,
  ⟨5, 0x5241484353, 0, 0, 0, 0⟩, ⟨6, 0x484352414553, 0, 0, 0, 0⟩, ⟨6, 0x444e4f434553, 0, 0, 0, 0⟩,
  ⟨8, 0x45434e4555514553, 0, 0, 0, 0⟩, ⟨17, 0x2d53554f49524553, 0x4f495449444e4f43, 0x4e, 0, 0⟩,
  ⟨3, 0x544553, 0, 0, 0, 0⟩, ⟨14, 0x464649442d544553, 0x45434e455245, 0, 0, 0⟩,
  ⟨28, 0x505349442d544553, 0x43414d2d48435441, 0x41524148432d4f52, 0x52455443, 0⟩,
  ⟨16, 0x4c4358452d544553, 0x524f2d4556495355, 0, 0, 0⟩,
  ⟨19, 0x5243414d2d544553, 0x4341524148432d4f, 0x524554, 0, 0⟩,
  ⟨19, 0x495250502d544553, 0x41505349442d544e, 0x484354, 0, 0⟩,
  ⟨20, 0x544e59532d544553, 0x2d4d4f52462d5841, 0x52414843, 0, 0⟩, ⟨4, 0x46544553, 0, 0, 0, 0⟩,
  ⟨4, 0x51544553, 0, 0, 0, 0⟩, ⟨7, 0x48544e45564553, 0, 0, 0, 0⟩, ⟨6, 0x574f44414853, 0, 0, 0, 0⟩,
  ⟨16, 0x4e49574f44414853, 0x54524f504d492d47, 0, 0, 0⟩,
  ⟨17, 0x492d444552414853, 0x5a494c414954494e, 0x45, 0, 0⟩, ⟨6, 0x465446494853, 0, 0, 0, 0⟩,
  ⟨11, 0x4c462d54524f4853, 0x54414f, 0, 0, 0⟩,
  ⟨19, 0x4c462d54524f4853, 0x495350452d54414f, 0x4e4f4c, 0, 0⟩,
  ⟨28, 0x4c462d54524f4853, 0x4147454e2d54414f, 0x5350452d45564954, 0x4e4f4c49, 0⟩,
  ⟨15, 0x49532d54524f4853, 0x454d414e2d4554, 0, 0, 0⟩, ⟨6, 0x4c414e474953, 0, 0, 0, 0⟩,
  ⟨11, 0x422d44454e474953, 0x455459, 0, 0, 0⟩, ⟨6, 0x4d554e474953, 0, 0, 0, 0⟩,
  ⟨12, 0x412d454c504d4953, 0x59415252, 0, 0, 0⟩,
  ⟨18, 0x422d454c504d4953, 0x495254532d455341, 0x474e, 0, 0⟩,
  ⟨17, 0x422d454c504d4953, 0x4f544345562d5449, 0x52, 0, 0⟩,
  ⟨19, 0x422d454c504d4953, 0x4f544345562d5449, 0x502d52, 0, 0⟩]

def seedCommonLisp25 : List SeedWords := [
  ⟨16, 0x432d454c504d4953, 0x4e4f495449444e4f, 0, 0, 0⟩,
  ⟨33, 0x432d454c504d4953, 0x4e4f495449444e4f, 0x2d54414d524f462d, 0x544e454d55475241, 0x53⟩,
  ⟨31, 0x432d454c504d4953, 0x4e4f495449444e4f, 0x2d54414d524f462d, 0x4c4f52544e4f43, 0⟩,
  ⟨12, 0x452d454c504d4953, 0x524f5252, 0, 0, 0⟩, ⟨13, 0x532d454c504d4953, 0x474e495254, 0, 0, 0⟩,
  ⟨15, 0x532d454c504d4953, 0x502d474e495254, 0, 0, 0⟩,
  ⟨17, 0x542d454c504d4953, 0x4f5252452d455059, 0x52, 0, 0⟩,
  ⟨13, 0x562d454c504d4953, 0x524f544345, 0, 0, 0⟩,
  ⟨15, 0x562d454c504d4953, 0x502d524f544345, 0, 0, 0⟩,
  ⟨14, 0x572d454c504d4953, 0x474e494e5241, 0, 0, 0⟩, ⟨3, 0x4e4953, 0, 0, 0, 0⟩,
  ⟨12, 0x462d454c474e4953, 0x54414f4c, 0, 0, 0⟩,
  ⟨20, 0x462d454c474e4953, 0x5350452d54414f4c, 0x4e4f4c49, 0, 0⟩,
  ⟨29, 0x462d454c474e4953, 0x47454e2d54414f4c, 0x50452d4556495441, 0x4e4f4c4953, 0⟩,
  ⟨4, 0x484e4953, 0, 0, 0, 0⟩, ⟨5, 0x4854584953, 0, 0, 0, 0⟩, ⟨5, 0x5045454c53, 0, 0, 0, 0⟩,
  ⟨11, 0x554f422d544f4c53, 0x50444e, 0, 0, 0⟩, ⟨13, 0x4958452d544f4c53, 0x502d535453, 0, 0, 0⟩,
  ⟨15, 0x4b414d2d544f4c53, 0x444e554f424e55, 0, 0, 0⟩,
  ⟨12, 0x53494d2d544f4c53, 0x474e4953, 0, 0, 0⟩, ⟨12, 0x424e552d544f4c53, 0x444e554f, 0, 0, 0⟩,
  ⟨10, 0x4c41562d544f4c53, 0x4555, 0, 0, 0⟩, ⟨13, 0x4552415754464f53, 0x455059542d, 0, 0, 0⟩,
  ⟨16, 0x4552415754464f53, 0x4e4f49535245562d, 0, 0, 0⟩, ⟨4, 0x454d4f53, 0, 0, 0, 0⟩,
  ⟨4, 0x54524f53, 0, 0, 0, 0⟩, ⟨5, 0x4543415053, 0, 0, 0, 0⟩, ⟨7, 0x4c414943455053, 0, 0, 0, 0⟩,
  ⟨18, 0x2d4c414943455053, 0x524f54415245504f, 0x502d, 0, 0⟩, ⟨5, 0x4445455053, 0, 0, 0, 0⟩,
  ⟨4, 0x54525153, 0, 0, 0, 0⟩]

def seedCommonLisp26 : List SeedWords := [
  ⟨11, 0x532d454c42415453, 0x54524f, 0, 0, 0⟩, ⟨8, 0x445241444e415453, 0, 0, 0, 0⟩,
  ⟨13, 0x445241444e415453, 0x524148432d, 0, 0, 0⟩,
  ⟨15, 0x445241444e415453, 0x502d524148432d, 0, 0, 0⟩,
  ⟨14, 0x445241444e415453, 0x5353414c432d, 0, 0, 0⟩,
  ⟨25, 0x445241444e415453, 0x434952454e45472d, 0x4f4954434e55462d, 0x4e, 0⟩,
  ⟨15, 0x445241444e415453, 0x444f4854454d2d, 0, 0, 0⟩,
  ⟨15, 0x445241444e415453, 0x5443454a424f2d, 0, 0, 0⟩, ⟨4, 0x50455453, 0, 0, 0, 0⟩,
  ⟨17, 0x2d454741524f5453, 0x4f495449444e4f43, 0x4e, 0, 0⟩,
  ⟨11, 0x41562d45524f5453, 0x45554c, 0, 0, 0⟩, ⟨6, 0x4d4145525453, 0, 0, 0, 0⟩,
  ⟨19, 0x452d4d4145525453, 0x542d544e454d454c, 0x455059, 0, 0⟩,
  ⟨12, 0x452d4d4145525453, 0x524f5252, 0, 0, 0⟩,
  ⟨19, 0x452d4d4145525453, 0x5254532d524f5252, 0x4d4145, 0, 0⟩,
  ⟨22, 0x452d4d4145525453, 0x2d4c414e52455458, 0x54414d524f46, 0, 0⟩,
  ⟨7, 0x504d4145525453, 0, 0, 0, 0⟩, ⟨6, 0x474e49525453, 0, 0, 0, 0⟩,
  ⟨17, 0x432d474e49525453, 0x5a494c4154495041, 0x45, 0, 0⟩,
  ⟨15, 0x442d474e49525453, 0x455341434e574f, 0, 0, 0⟩,
  ⟨12, 0x452d474e49525453, 0x4c415551, 0, 0, 0⟩,
  ⟨15, 0x472d474e49525453, 0x50524554414552, 0, 0, 0⟩,
  ⟨16, 0x4c2d474e49525453, 0x4d4952542d544645, 0, 0, 0⟩,
  ⟨12, 0x4c2d474e49525453, 0x50535345, 0, 0, 0⟩,
  ⟨16, 0x4e2d474e49525453, 0x4c415551452d544f, 0, 0, 0⟩,
  ⟨19, 0x4e2d474e49525453, 0x54414552472d544f, 0x505245, 0, 0⟩,
  ⟨16, 0x4e2d474e49525453, 0x505353454c2d544f, 0, 0, 0⟩,
  ⟨17, 0x522d474e49525453, 0x4952542d54484749, 0x4d, 0, 0⟩,
  ⟨13, 0x532d474e49525453, 0x4d41455254, 0, 0, 0⟩, ⟨11, 0x542d474e49525453, 0x4d4952, 0, 0, 0⟩,
  ⟨13, 0x552d474e49525453, 0x4553414350, 0, 0, 0⟩, ⟨8, 0x3d2f474e49525453, 0, 0, 0, 0⟩]

def seedCommonLisp27 : List SeedWords := [
  ⟨7, 0x3c474e49525453, 0, 0, 0, 0⟩, ⟨8, 0x3d3c474e49525453, 0, 0, 0, 0⟩,
  ⟨7, 0x3d474e49525453, 0, 0, 0, 0⟩, ⟨7, 0x3e474e49525453, 0, 0, 0, 0⟩,
  ⟨8, 0x3d3e474e49525453, 0, 0, 0, 0⟩, ⟨7, 0x50474e49525453, 0, 0, 0, 0⟩,
  ⟨9, 0x5255544355525453, 0x45, 0, 0, 0⟩, ⟨15, 0x5255544355525453, 0x5353414c432d45, 0, 0, 0⟩,
  ⟨16, 0x5255544355525453, 0x5443454a424f2d45, 0, 0, 0⟩,
  ⟨13, 0x41572d454c595453, 0x474e494e52, 0, 0, 0⟩, ⟨6, 0x53494c425553, 0, 0, 0, 0⟩,
  ⟨6, 0x514553425553, 0, 0, 0, 0⟩, ⟨7, 0x50544553425553, 0, 0, 0, 0⟩,
  ⟨5, 0x5453425553, 0, 0, 0, 0⟩, ⟨8, 0x46492d5453425553, 0, 0, 0, 0⟩,
  ⟨12, 0x46492d5453425553, 0x544f4e2d, 0, 0, 0⟩, ⟨10, 0x5554495453425553, 0x4554, 0, 0, 0⟩,
  ⟨13, 0x5554495453425553, 0x46492d4554, 0, 0, 0⟩,
  ⟨17, 0x5554495453425553, 0x4f4e2d46492d4554, 0x54, 0, 0⟩, ⟨8, 0x5045505954425553, 0, 0, 0, 0⟩,
  ⟨5, 0x4645525653, 0, 0, 0, 0⟩, ⟨6, 0x485341485853, 0, 0, 0, 0⟩, ⟨6, 0x4c4f424d5953, 0, 0, 0, 0⟩,
  ⟨15, 0x462d4c4f424d5953, 0x4e4f4954434e55, 0, 0, 0⟩,
  ⟨15, 0x4d2d4c4f424d5953, 0x54454c4f524341, 0, 0, 0⟩, ⟨11, 0x4e2d4c4f424d5953, 0x454d41, 0, 0, 0⟩,
  ⟨14, 0x502d4c4f424d5953, 0x4547414b4341, 0, 0, 0⟩, ⟨12, 0x502d4c4f424d5953, 0x5453494c, 0, 0, 0⟩,
  ⟨12, 0x562d4c4f424d5953, 0x45554c41, 0, 0, 0⟩, ⟨7, 0x504c4f424d5953, 0, 0, 0, 0⟩,
  ⟨14, 0x2d4d594e4f4e5953, 0x4d4145525453, 0, 0, 0⟩,
  ⟨21, 0x2d4d594e4f4e5953, 0x532d4d4145525453, 0x4c4f424d59, 0, 0⟩]

def seedCommonLisp28 : List SeedWords := [
  ⟨1, 0x54, 0, 0, 0, 0⟩, ⟨7, 0x59444f42474154, 0, 0, 0, 0⟩, ⟨5, 0x504c494154, 0, 0, 0, 0⟩,
  ⟨3, 0x4e4154, 0, 0, 0, 0⟩, ⟨4, 0x484e4154, 0, 0, 0, 0⟩, ⟨5, 0x48544e4554, 0, 0, 0, 0⟩,
  ⟨6, 0x495250524554, 0, 0, 0, 0⟩, ⟨3, 0x454854, 0, 0, 0, 0⟩, ⟨5, 0x4452494854, 0, 0, 0, 0⟩,
  ⟨5, 0x574f524854, 0, 0, 0, 0⟩, ⟨4, 0x454d4954, 0, 0, 0, 0⟩, ⟨5, 0x4543415254, 0, 0, 0, 0⟩,
  ⟨26, 0x54414c534e415254, 0x414349474f4c2d45, 0x414e485441502d4c, 0x454d, 0⟩,
  ⟨18, 0x54414c534e415254, 0x414e485441502d45, 0x454d, 0, 0⟩,
  ⟨10, 0x5551452d45455254, 0x4c41, 0, 0, 0⟩, ⟨8, 0x454d414e45555254, 0, 0, 0, 0⟩,
  ⟨8, 0x455441434e555254, 0, 0, 0, 0⟩, ⟨14, 0x2d5941572d4f5754, 0x4d4145525453, 0, 0, 0⟩,
  ⟨27, 0x2d5941572d4f5754, 0x492d4d4145525453, 0x5254532d5455504e, 0x4d4145, 0⟩,
  ⟨28, 0x2d5941572d4f5754, 0x4f2d4d4145525453, 0x54532d5455505455, 0x4d414552, 0⟩,
  ⟨4, 0x45505954, 0, 0, 0, 0⟩, ⟨10, 0x5252452d45505954, 0x524f, 0, 0, 0⟩,
  ⟨16, 0x5252452d45505954, 0x4d555441442d524f, 0, 0, 0⟩,
  ⟨24, 0x5252452d45505954, 0x43455058452d524f, 0x455059542d444554, 0, 0⟩,
  ⟨7, 0x464f2d45505954, 0, 0, 0, 0⟩, ⟨8, 0x4553414345505954, 0, 0, 0, 0⟩,
  ⟨5, 0x5045505954, 0, 0, 0, 0⟩, ⟨12, 0x2d444e554f424e55, 0x544f4c53, 0, 0, 0⟩,
  ⟨21, 0x2d444e554f424e55, 0x534e492d544f4c53, 0x45434e4154, 0, 0⟩,
  ⟨16, 0x2d444e554f424e55, 0x454c424149524156, 0, 0, 0⟩,
  ⟨18, 0x454e494645444e55, 0x4954434e55462d44, 0x4e4f, 0, 0⟩, ⟨8, 0x54524f5058454e55, 0, 0, 0, 0⟩]

def seedCommonLisp29 : List SeedWords := [
  ⟨8, 0x4e5245544e494e55, 0, 0, 0, 0⟩, ⟨5, 0x4e4f494e55, 0, 0, 0, 0⟩,
  ⟨6, 0x5353454c4e55, 0, 0, 0, 0⟩, ⟨11, 0x432d444145524e55, 0x524148, 0, 0, 0⟩,
  ⟨13, 0x44454e4749534e55, 0x455459422d, 0, 0, 0⟩, ⟨7, 0x45434152544e55, 0, 0, 0, 0⟩,
  ⟨13, 0x41502d4553554e55, 0x4547414b43, 0, 0, 0⟩,
  ⟨14, 0x502d444e49574e55, 0x544345544f52, 0, 0, 0⟩,
  ⟨35, 0x492d455441445055, 0x2d45434e4154534e, 0x464649442d524f46, 0x4c432d544e455245, 0x535341⟩,
  ⟨35, 0x492d455441445055, 0x2d45434e4154534e, 0x454445522d524f46, 0x4c432d44454e4946, 0x535341⟩,
  ⟨27, 0x4445444152475055, 0x452d59415252412d, 0x542d544e454d454c, 0x455059, 0⟩,
  ⟨26, 0x4445444152475055, 0x58454c504d4f432d, 0x59542d545241502d, 0x4550, 0⟩,
  ⟨12, 0x41432d5245505055, 0x502d4553, 0, 0, 0⟩, ⟨11, 0x4b4341502d455355, 0x454741, 0, 0, 0⟩,
  ⟨9, 0x554c41562d455355, 0x45, 0, 0, 0⟩,
  ⟨21, 0x4d4f482d52455355, 0x5441502d52494445, 0x454d414e48, 0, 0⟩,
  ⟨6, 0x5345554c4156, 0, 0, 0, 0⟩, ⟨11, 0x4c2d5345554c4156, 0x545349, 0, 0, 0⟩,
  ⟨8, 0x454c424149524156, 0, 0, 0, 0⟩, ⟨6, 0x524f54434556, 0, 0, 0, 0⟩,
  ⟨10, 0x502d524f54434556, 0x504f, 0, 0, 0⟩, ⟨11, 0x502d524f54434556, 0x485355, 0, 0, 0⟩,
  ⟨18, 0x502d524f54434556, 0x455458452d485355, 0x444e, 0, 0⟩, ⟨7, 0x50524f54434556, 0, 0, 0, 0⟩,
  ⟨4, 0x4e524157, 0, 0, 0, 0⟩, ⟨7, 0x474e494e524157, 0, 0, 0, 0⟩, ⟨4, 0x4e454857, 0, 0, 0, 0⟩,
  ⟨15, 0x5441502d444c4957, 0x502d454d414e48, 0, 0, 0⟩,
  ⟨14, 0x4343412d48544957, 0x53524f535345, 0, 0, 0⟩,
  ⟨21, 0x4d4f432d48544957, 0x4e4f4954414c4950, 0x54494e552d, 0, 0⟩,
  ⟨23, 0x4e4f432d48544957, 0x522d4e4f49544944, 0x53545241545345, 0, 0⟩,
  ⟨24, 0x5341482d48544957, 0x2d454c4241542d48, 0x524f544152455449, 0, 0⟩]

def seedCommonLisp30 : List SeedWords := [
  ⟨22, 0x504e492d48544957, 0x2d4d4f52462d5455, 0x474e49525453, 0, 0⟩,
  ⟨14, 0x45504f2d48544957, 0x454c49462d4e, 0, 0, 0⟩,
  ⟨16, 0x45504f2d48544957, 0x4d41455254532d4e, 0, 0, 0⟩,
  ⟨21, 0x54554f2d48544957, 0x532d4f542d545550, 0x474e495254, 0, 0⟩,
  ⟨21, 0x4341502d48544957, 0x4554492d4547414b, 0x524f544152, 0, 0⟩,
  ⟨19, 0x4d49532d48544957, 0x545345522d454c50, 0x545241, 0, 0⟩,
  ⟨10, 0x4f4c532d48544957, 0x5354, 0, 0, 0⟩,
  ⟨23, 0x4154532d48544957, 0x4f492d445241444e, 0x5841544e59532d, 0, 0⟩,
  ⟨5, 0x4554495257, 0, 0, 0, 0⟩, ⟨10, 0x59422d4554495257, 0x4554, 0, 0, 0⟩,
  ⟨10, 0x48432d4554495257, 0x5241, 0, 0, 0⟩, ⟨10, 0x494c2d4554495257, 0x454e, 0, 0, 0⟩,
  ⟨14, 0x45532d4554495257, 0x45434e455551, 0, 0, 0⟩, ⟨12, 0x54532d4554495257, 0x474e4952, 0, 0, 0⟩,
  ⟨15, 0x4f542d4554495257, 0x474e495254532d, 0, 0, 0⟩, ⟨8, 0x502d4e2d524f2d59, 0, 0, 0, 0⟩,
  ⟨11, 0x4e2d524f2d534559, 0x502d4f, 0, 0, 0⟩, ⟨5, 0x504f52455a, 0, 0, 0, 0⟩]

def seedPsl0 : List SeedWords := [
  ⟨7, 0x464f4e47494c41, 0, 0, 0, 0⟩, ⟨8, 0x444e412d53544942, 0, 0, 0, 0⟩,
  ⟨10, 0x4e5849462d584f42, 0x4d55, 0, 0, 0⟩, ⟨6, 0x524148432d43, 0, 0, 0, 0⟩,
  ⟨8, 0x454c42554f442d43, 0, 0, 0, 0⟩, ⟨8, 0x54524f5058452d43, 0, 0, 0, 0⟩,
  ⟨7, 0x54414f4c462d43, 0, 0, 0, 0⟩, ⟨5, 0x544e492d43, 0, 0, 0, 0⟩,
  ⟨6, 0x474e4f4c2d43, 0, 0, 0, 0⟩, ⟨11, 0x4c2d474e4f4c2d43, 0x474e4f, 0, 0, 0⟩,
  ⟨11, 0x4649445254502d43, 0x542d46, 0, 0, 0⟩, ⟨7, 0x54524f48532d43, 0, 0, 0, 0⟩,
  ⟨8, 0x542d455a49532d43, 0, 0, 0, 0⟩, ⟨7, 0x52414843552d43, 0, 0, 0, 0⟩,
  ⟨6, 0x544e49552d43, 0, 0, 0, 0⟩, ⟨7, 0x474e4f4c552d43, 0, 0, 0, 0⟩,
  ⟨12, 0x2d474e4f4c552d43, 0x474e4f4c, 0, 0, 0⟩, ⟨8, 0x54524f4853552d43, 0, 0, 0, 0⟩,
  ⟨15, 0x2d5443454c4c4f43, 0x45474142524147, 0, 0, 0⟩, ⟨10, 0x5552545343464544, 0x5443, 0, 0, 0⟩,
  ⟨16, 0x4355525453464544, 0x44454b4341502f54, 0, 0, 0⟩, ⟨7, 0x432f4e55464544, 0, 0, 0, 0⟩,
  ⟨5, 0x4645524544, 0, 0, 0, 0⟩, ⟨6, 0x54524f505845, 0, 0, 0, 0⟩,
  ⟨15, 0x462d4e5245545845, 0x4e4f4954434e55, 0, 0, 0⟩, ⟨3, 0x323346, 0, 0, 0, 0⟩,
  ⟨3, 0x343646, 0, 0, 0, 0⟩, ⟨13, 0x4f502d444c454946, 0x5245544e49, 0, 0, 0⟩,
  ⟨7, 0x4544554c434e49, 0, 0, 0, 0⟩, ⟨13, 0x532d4e5245544e49, 0x4c4f424d59, 0, 0, 0⟩,
  ⟨5, 0x455a495349, 0, 0, 0, 0⟩, ⟨4, 0x44414f4c, 0, 0, 0, 0⟩]

def seedPsl1 : List SeedWords := [
  ⟨16, 0x5459422d454b414d, 0x474e495254532d45, 0, 0, 0⟩,
  ⟨22, 0x4341502d454b414d, 0x4f52462d4547414b, 0x454d414e2d4d, 0, 0⟩,
  ⟨9, 0x4f2d54455346464f, 0x46, 0, 0, 0⟩, ⟨8, 0x2b5245544e494f50, 0, 0, 0, 0⟩,
  ⟨3, 0x525450, 0, 0, 0, 0⟩, ⟨11, 0x524444412d525450, 0x535345, 0, 0, 0⟩,
  ⟨8, 0x545341432d525450, 0, 0, 0, 0⟩, ⟨16, 0x4d4f52462d525450, 0x535345524444412d, 0, 0, 0⟩,
  ⟨7, 0x534e5255544552, 0, 0, 0, 0⟩, ⟨3, 0x363153, 0, 0, 0, 0⟩, ⟨3, 0x323353, 0, 0, 0, 0⟩,
  ⟨3, 0x343653, 0, 0, 0, 0⟩, ⟨2, 0x3853, 0, 0, 0, 0⟩,
  ⟨15, 0x495254532d544553, 0x455459422d474e, 0, 0, 0⟩, ⟨5, 0x3436524853, 0, 0, 0, 0⟩,
  ⟨6, 0x464f455a4953, 0, 0, 0, 0⟩, ⟨5, 0x45524f5453, 0, 0, 0, 0⟩,
  ⟨11, 0x422d474e49525453, 0x455459, 0, 0, 0⟩, ⟨3, 0x363155, 0, 0, 0, 0⟩,
  ⟨3, 0x323355, 0, 0, 0, 0⟩, ⟨3, 0x343655, 0, 0, 0, 0⟩, ⟨2, 0x3855, 0, 0, 0, 0⟩,
  ⟨12, 0x49462d584f424e55, 0x4d554e58, 0, 0, 0⟩, ⟨5, 0x455a495355, 0, 0, 0, 0⟩,
  ⟨5, 0x45554c4156, 0, 0, 0, 0⟩, ⟨4, 0x44494f56, 0, 0, 0, 0⟩, ⟨5, 0x454c494857, 0, 0, 0, 0⟩,
  ⟨18, 0x2d54554f48544957, 0x495441434f4c4c41, 0x4e4f, 0, 0⟩, ⟨5, 0x2a50415257, 0, 0, 0, 0⟩,
  ⟨5, 0x2b50415257, 0, 0, 0, 0⟩, ⟨5, 0x2d50415257, 0, 0, 0, 0⟩,
  ⟨9, 0x5341432d50415257, 0x54, 0, 0, 0⟩]

def seedPslVectors : List SeedWords := [
  ⟨17, 0x4c41562d454b414d, 0x4f544345562d4555, 0x52, 0, 0⟩,
  ⟨19, 0x45562d45554c4156, 0x4e454c2d524f5443, 0x485447, 0, 0⟩,
  ⟨16, 0x45562d45554c4156, 0x4645522d524f5443, 0, 0, 0⟩,
  ⟨16, 0x45562d45554c4156, 0x5445532d524f5443, 0, 0, 0⟩,
  ⟨17, 0x45562d45554c4156, 0x5355502d524f5443, 0x48, 0, 0⟩]

def seedPslFfi0 : List SeedWords := [
  ⟨10, 0x2d53534552444441, 0x464f, 0, 0, 0⟩, ⟨8, 0x474e495254532d43, 0, 0, 0, 0⟩,
  ⟨4, 0x4c4c4143, 0, 0, 0, 0⟩, ⟨11, 0x442d54524f505845, 0x415441, 0, 0, 0⟩,
  ⟨11, 0x442d54524f504d49, 0x415441, 0, 0, 0⟩, ⟨15, 0x462d54524f504d49, 0x4e4f4954434e55, 0, 0, 0⟩,
  ⟨6, 0x454352554f53, 0, 0, 0, 0⟩]

/-- The names of the first package, in the order in which they are exported. -/
def seedCommonLisp : List SeedWords :=
  seedCommonLisp0 ++ seedCommonLisp1 ++ seedCommonLisp2 ++ seedCommonLisp3 ++ seedCommonLisp4 ++
    seedCommonLisp5 ++ seedCommonLisp6 ++ seedCommonLisp7 ++ seedCommonLisp8 ++
    seedCommonLisp9 ++ seedCommonLisp10 ++ seedCommonLisp11 ++ seedCommonLisp12 ++
    seedCommonLisp13 ++ seedCommonLisp14 ++ seedCommonLisp15 ++ seedCommonLisp16 ++
    seedCommonLisp17 ++ seedCommonLisp18 ++ seedCommonLisp19 ++ seedCommonLisp20 ++
    seedCommonLisp21 ++ seedCommonLisp22 ++ seedCommonLisp23 ++ seedCommonLisp24 ++
    seedCommonLisp25 ++ seedCommonLisp26 ++ seedCommonLisp27 ++ seedCommonLisp28 ++
    seedCommonLisp29 ++ seedCommonLisp30

/-- The names of the second package. -/
def seedPsl : List SeedWords :=
  seedPsl0 ++ seedPsl1 ++ seedPslVectors

/-- The names of the third package. -/
def seedPslFfi : List SeedWords :=
  seedPslFfi0

end Native
