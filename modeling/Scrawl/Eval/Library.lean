/-
  Scrawl.Eval.Library — packed libraries.

  A library is a text in base 85.  The drawing library is known by its text.  What any other library
  does is not decided here: it is whatever the given libraries do (`Libraries`).
-/

import Scrawl.World

namespace Scrawl.Library

open Scrawl.Codec (Bytes)

/-! ## §1. The drawing library -/

/-- The drawing library as it is shipped, cut into lines. -/
def shippedLines : List String := [
    "X>D+Ca&#bcYiVwDWpWB>ZE$aLbRcwSa%Ev;X>Ml<X>D+Ca&#bXa|#M~X>Me1cXJ>;AX\x7bAub8vELbY*iOJs?|M3JP",
    "OvVRLgJS7~l!Z+AKhARr(hWMyU`Utei%X>?y-D05|OW-K6Pb#7yBVQpnBAZ2cLEFgC*AZRQgbZK;KWhpueARr(hA",
    "Rr(hb7gF1E@pLZV\x7bTz>WgtBuW_503ZeeX@3LqdLARr(hAaiAGW-euJb|5_<Wo~u~3LqdLARr(hAaiAGW-fAXZ*(9",
    "%AarYKZggdGE>vqMbZK;KWhn|EARr(hARr)fWo%|Ha&K>RE_ZETbZK;KWhiuMbZliQ3LqdLARr(hAaiAGW-fAXZ*",
    "(qlWpinIVPb4$C`Msyb7d?bMqzAoWhn|EARr(hARr)fWo%|HV_|M~VRIloAarYKZggdGE<<5%c42cUb7gF1E^=>g",
    "bSxluX=HS0J$Ec1Xk\x7d?<XmmYjDGDGUARr(hARu#PY-TQFVQzL|b1raUV\x7b0fW3LqdLARr(hAaiAGW-el9Ut@1<Z*m",
    "|#AR=OHVPk6|3LqdLARr(hAaiAGW-e=Gd1GO0Y+_+!Yal%!PH%2y3LqdLARr(hAaiAGW-eoFX=7_+VQg$-VPk6`J",
    "s?hRZe<D\x7dARr(hARr)fWo%|Ha&K>RE@EkJWGEs$OJ#XJA\x7dk<tWo%|HZ*FU4c_|7YARr(hARr)fWo%|Ha&K>RE@Ek",
    "JWGEs$LUnX>Z*DCyJ|Zk2b7gF1E^lsQY-wX_DGDGUARr(hARu#PY-TQUZ*O!iVrgz<C?Y&Ub#!!ZZY?rCA\x7dk<tWo",
    "%|HZ*F63X=7_C3LqdLARr(hAaiAGW-fAXZ*(qVX>MdFB0NHMbaZcSEi*nMEFg1bY-TQRZewg|V\x7b0i2ARr(h3LqdL",
    "AY^4`Aa8DKWqBxbWo%|FAZ2!RDLM)uARr(hARr)VW*~EAY-TQNWqD&^Y;0m-V\x7b0HiJs?hRZe=<OARr(hARr(hARr",
    "(ha%FUNa&8JBARr(hARr)8b#6v=Zew(5Z*C\x7daWo%|HYh`(3VQg$-VPk77AaiAGW-euJb\x7dS%UC?|7ta%pa7CoCXyb",
    "aE(Vc62UdXkl_GDJ&o;CvJ6ZVr6nCEFfuabSPzZbS`UUd1G&6Whp6LDGCZ8ARr)QWo966Zewg|V\x7b0gLWo%|FAZ2!",
    "RDLM)uARr(hARr)VW*~EAY-TQFY-wX_V_|G;Vqs%zAU!=GPH%2yItm~lARr(hARr(hARuyObairW3LqdLARr(hAX",
    "0U1Ms;pubZKvHD05|OW-eoFX=7_+VQg$-VPk77AaiAGW-euJb\x7dS%UC?\x7b@pZDM6|CoCXoZgePRc62Uob!\x7bmrEFdT+",
    "Zgp*9WpXDhAZc!NC\x7dnnZE_f*^EFdT+Zgp*9WpXDhAZc!NC\x7dnnZE_o>_T`39*ARr(hWMyU`b97;HbSQIWY-TAs3Lq",
    "dLARr(hAaiAGW-fAXZ*(qUW^`q8C^0M`b7gF1E?;tWZYc^NARr(hARr)ga(OxmARr(hARr(hARr(hb7gF1E^=>gb",
    "S`aSX>M$9Z*V9n3LqdLARr(hAZ2)CWpH#LOJ#XtZ((v|Np5sya&mQWbUF$kARr(hARr(hARr)cVRLf|ARr(h3Lqd",
    "LAY^4`AYXEIZYXnQY-TAs3LqdLARr(hAaiAGW-eo4ZgydFE@WkFWprgICt+-CCn*XFARr(hARr(hb7gF1E@NSCc4",
    "2caV\x7b&C-bY)+1Wn*+<Zf9&|C@?G_Ff1T8G%ze6HZ(9SAa8YaY-w&~J#%GjW-el9Ut@1<Z*nXkW@&6\x7dJ#%GjW-el9",
    "Ut@1<Z*nOL3LqdLARr(hAX0U1Ms;pubZKvHD05|OW-exRZewm?ZDlMVb7gF1E@f_ZDGCZ8ARr(hARr)fWo%|Ha&K",
    ">RE@5VLWpXGnEFg1bY-TQBa&>Mg3JPRpW*\x7d!WWM5-)Wnpw>C\x7dnPTEFfcHY;0m-V\x7b0rRcPt=iEFg4gbZliQItm~lA",
    "RuRKZ(?C=Aa`kQWN&wKEFf2DZe(wF3LqdLAYW-@AUz;#Wo\x7b^UX>Me1cXKHU3LqdLAa`kQWN&wKE@5zRWo~3BS7~l",
    "!Z+9qTVQg$-VPk7sF<mSmWo~vXAZc!ND0f>iT`4ReX>N2VXj?H|DJ&p!baE(kX>@F5TQOZJDJcpHARr(ha%FUNa&",
    "90fCvJ6ZVr6nCEFfQLWGM;?WMyU`XEJ18b97;HbSPzRb\x7dS%YX=Eun3LqdLAZKiEVqt6`cWG\x7b9Z+CMnAXjN_WN&v0",
    "ARr(hcWG`QJs@\x7b!Ze(wFb6aU\x7bbSPhGWLq&^DP0N*ARr(hcWG`eb97;HbSNnbARr(ha%FUNa&90fPH%2yEGY^KWMy",
    "U`XEJ18Vqs%zXL4_KZe%EBZgwmnUuk44AY*TAZ*nO*3LqdLAZKiEVqt6`cWG\x7b9Z+CMnAXjN_WN&v0ARr(hcWG`QJ",
    "s@\x7b!Ze(wFb6aU\x7bbSPhGWLq&^DP0N*ARr(hcWG`eVrO4tZ)|UJAUz;sZ)|UJTQOY<ARr(ha%FUNa&90fPH%2yEGY^",
    "KWMyU`XEJ18a%E$5C\x7dnPTEFfQLWGo<fEFgI-Aa^VvXe=OOZ)|UJDLM)uARr)TY;R&=Y#?`OZe(wFb1WcNX>Me1cM",
    "2dNARu>XZXi7%cWG\x7b9Z+CNBX>N2VUuk4pF<mKL3JM?~ARu@kJs@drbSQXRF<mJNARr(hc_2L?X>N2Vd0R1EDGDGU",
    "ARu=jJs@\x7d>D<ElZbSQUQF<mJNARr(hXdpcxc_1qwX>N2VXj?H|DGDGUARuFJY;STPJs@**awubOY;ST~F<mJN3Lq",
    "dLAa`kQE@NSCc42caV\x7b&C-bY)+1Wn*+<Zf9&|D0nO&c`P7zEFfqsAa8YaY-w&~J!5ZdZ*nXkW@&6\x7dJ!5ZdZ*nOLA",
    "Rr(ha%FUNa&90fPH%2yEGY^KWMyU`XEJ18Y-w&~C\x7dnPTEFfQLWGo<fF)Sc?F)Sc>GAtl@GAtltZ)|UJDLM)uARr)",
    "TY;R&=Y#?`OZe(wFb1WcNX>Me1cM2dNARu>XZXi7%cWG\x7b9Z+CNBX>N2VUuk4pF<mKL3JM?~ARu@#AUz;yZgePkF<",
    "UWRDGDGUARu`$AUz;yZgePlF<UWRDGDGUARu@$AUz;yZgePkGFvfSDGDGUARu`%AUz;yZgePlGFvfSDGDGUARuFJ",
    "Y;STPJs@**awubOY;ST~F<mJN3LqdLAa`kQE@NSCc42caV\x7b&C-bY)*`X>MgGcrh#>c`+;?crq*?c`_^@W@&6\x7dJ!5",
    "ZdZ*nOLARr(ha%FUNa&90fPH%2yEGY^KWMyU`XEJ18Wo&F|aC2oSWo~vXAYW-@EFgF+AbBhxcPt=iEFfcVY;STYI",
    "tm~lARuRKZ(?C=Aa`kQWN&wKEFf2DZe(wF3LqdLAa`kQAUz;=X>Me1cXL~5ZgePLX=Gb5T`64(3LqdLAb21>AZc!",
    "ND0o\x7bjT`3A6ARr)lAUz;yZgePlTQOZJ3LqdLAa@`=Ab21vAZc!ND0f>iT`3A6ARr)UAUz;?AS)ngZgePUTQOZJ3L",
    "qdLAY*TAZ*m|#AaitbC\x7dVGIZ*p5PT`39*ARr(hcWG`eV_|M~VRJ5Ha%Ew3WnXW0VQeUPEFgI-Aa^VvXe=Oab#!cL",
    "Ze=\x7dVZ)|UJEFflSY-~MaZ)|UJDGDGUARuyObairWASh06Ze=Vf3JPRpW*\x7d!WWM6D=VPtb~awuhPb\x7dS%pVRUFIItm",
    "~lARuRKZ(?C=AaihXX>?_C3LqdLAYW-@AUz;#Wo\x7b^QaB^vMWpgPC3LqdLAaG%HXdpcxb98bjaA9<4TQOZJ3JM?~A",
    "Ru#aa%psBb1q?UaAj^\x7dD0FLSZggdGE>LK1bZ<#*VP|D1W@&6?J#b-kXelWQ3LqdLAaZ4Nb#iVXC?\x7b@pZDM6|CoCX",
    "eX=Eu13S?zwAZIdUUvqGBX>?^MWo~vXAYW-@EFgF+AbBhxb8vDgItm~lARuRKZ(?C=AaihXX>?_CEFgDjZe(wFb1",
    "WcNX>Me1cM1w1ARr)jX>K4rAa`kQWN&wKTWM\x7d|C|_x0TQOZJT?z^yARr)kAUz;yZgePkTQOZJ3LqdLAbB7?AZc!N",
    "D0y2kT`39*ARr(hcWG`eV_|M~VRJ5Ha%Ew3WnXD+VP|D1cq|\x7d!EFfuZVP|DMb8vELbY*i\x7dX>N2Vb8vE7F<mKLDGD",
    "GUARuyObairWASh06Ze=Vf3JPRpW*\x7d!WWM6b?bZliPWo~vXAYW-@EFg4gbZliQItm~lARuRKZ(?C=Aa`kQWN&wKE",
    "Ff2DZe(wF3JM?~ARu>XZXi7%cWG\x7b9Z+CNBX>N2VUuk4pF<mKL3JM?~ARu>XZZ2|fZ*(qqZC`Y0bZliPb98bjbZK;",
    "KWm_>_DJcpdARr)eWps6NZXhU5Z*FBQDGCZ?Wo95\x7dGGt$GZfj+EC\x7dnPTEFfQLWGo<KVQg$-VPk74Itm~lARuRKZ(",
    "?C=Aa`kQWN&wKEFf2DZe(wF3JM?~ARu>XZXi7%cWG\x7b9Z+CNBX>N2VUuk4pF<mKL3JM?~ARu>XZZ2zOd1GO0Y+_+!",
    "Yal%!b98bjV_|G;Vqs%zTQOZJAPOKLARuyObairWASh06Ze=Vf3JPRpW*\x7d!WWM6M?V\x7bB<-Yba%Ib\x7dS%YX=E%QV_|",
    "G;Vqs%zDLM)uARr)TY;R&=Y#?`OZe(wFb1WcNX>Me1cM1w1ARr)jX>K4rAa`kQWN&wKTWM\x7d|C|_x0TQOZJT?z^yA",
    "Rr)jX>KlKY-wX_V_|G;Vqs%zAUz;+baE(TVQg$-VPk7sF<mJj3LqdLAaZ4Nb#iVXC\x7bAx~Wh^NQ3PEIKL1biaZbo%",
    "(V\x7b~b6ZYUyWGGt$4a%Ew3Wg;vfXEJ18V\x7b&C-bY&?DL1bh>WMpq\x7bMs;pubZKvHC?aPvWM6Z1VRCdLEFfnxWM6Z1VR",
    "CdS3PEIKL1biaZbo%(V\x7b~b6ZYUyWGGt$3VPk7&a&L8RWFjmeXEJ18Vqs%zXL4_KZe%G6L1bh>WMpq\x7bMs;pubZKvH",
    "C?aPvWM6V+V\x7b\x7b@cAZIdUUvgz*bSVl!WMn~PWN&Upb#7yHX>V>QB4;vWUu<b^Wg;vfXEJ18Y-w&~DGEVkWI<$PZ*E",
    "3)Zew(5Z*C|eXEJ18Wo&F|aC2oMEFfnxWM5@$Y-w<FWhn|lWMn~PWN&Upb#7yHX>V>QB4;vWUu<t-WOHzGA\x7dk<hG",
    "Gt$DZ((F\x7daB?XML1bh>WMpq\x7bMs;pubZKvHC?aPvWM6Y|a%psBA\x7dk<hGGt$KaB^vMWhn|lWMn~PWN&Upb#7yHX>V>",
    "QB4;vWUvz17Y-J)WAZIdUUvz17Y-K45L1bh>WMpq\x7bMs;pubZKvHC?aPvWM6M?Yh`&NEFfnxWM6M?Yh`&U3PEIKL1",
    "biaZbo%(V\x7b~b6ZYUyWGGt$GZewg|V\x7b0NTAZIdUUvF+>Y-wX_DF"]

/-- The shipped file of the drawing library. -/
def shippedFile : Bytes := shippedLines.flatMap Codec.Utf8.encode

/-! ## §2. Packing -/

/-- A text packed into base 85. -/
def pack (text : String) : Bytes :=
  Codec.Utf8.encodeChars (Codec.Base85.encode (Codec.Utf8.encode text))

/-- The text that packed bytes hold. -/
def unpack (bytes : Bytes) : Except Fault String :=
  match Codec.Base85.decode bytes with
  | .error fault => .error (.packing fault)
  | .ok content =>
    match Codec.Utf8.decode content with
    | .error fault => .error (.decoding fault)
    | .ok text => .ok text

/-- The text that a packed text holds; only the basic range of characters can be packed. -/
def unpackText (packed : String) : Except Fault String :=
  if packed.toList.all fun c => c.toNat < 0x80 then unpack (Codec.Utf8.encode packed)
  else .error .notBasic

/-! ## §3. Loading -/

/-- The text of the drawing library. -/
def drawingText : Option String := (unpack shippedFile).toOption

/-- The registrations of the drawing library's functions, from a given loading. -/
def drawingAddons (load : Nat) : List (Value × Value) :=
  Drawing.all.map fun op => (.text op.name, .nativeValue (.drawing load op))

/-- Makes the functions of the drawing library known, from a given loading. -/
def registerDrawing (load : Nat) : Run Unit :=
  (drawingAddons load).forM fun addon => register addon.1 addon.2

/-- Loads the drawing library once more, with an empty table. -/
def loadDrawing : Run Unit := do
  modify fun w =>
    { w with stage := { w.stage with loads := w.stage.loads + 1, shared := .empty } }
  registerDrawing (← get).stage.loads

/-- Loads the library with the given text, which is the drawing library or one of the given ones. -/
def load (libraries : Libraries) (text : String) : Run Unit :=
  if drawingText == some text then loadDrawing else libraries text

end Scrawl.Library
