/-!
# The built-in template

A fragment shader that marches rays through a scene: it evaluates the distance along each ray, and
all three properties where the ray meets the surface. It supplies the smooth minimum and maximum
that the generated distances call.
-/

namespace FieldShader

/-- The lines of the built-in template. -/
def raymarchLines : List String :=
  [
    "#version 330 core",
    "",
    "uniform vec2 iResolution;",
    "uniform float iTime;",
    "",
    "out vec4 fragColor;",
    "",
    "float smin(float a, float b, float k) \x7b",
    "\tfloat h = max(k - abs(a - b), 0.0) / k;",
    "\treturn min(a, b) - h * h * k * 0.25;",
    "\x7d",
    "",
    "float smax(float a, float b, float k) \x7b",
    "\tfloat h = max(k - abs(a - b), 0.0) / k;",
    "\treturn max(a, b) + h * h * k * 0.25;",
    "\x7d",
    "",
    "float sceneDistance(vec3 point) \x7b",
    "\t#evaluate sdf",
    "\treturn sdf;",
    "\x7d",
    "",
    "void sceneSurface(vec3 point, out vec3 surfaceNormal, out vec3 surfaceColor) \x7b",
    "\t#evaluate sdf",
    "\t#evaluate normal",
    "\t#evaluate color",
    "\tsurfaceNormal = normalize(normal);",
    "\tsurfaceColor = color;",
    "\x7d",
    "",
    "void main() \x7b",
    "\tvec2 uv = (gl_FragCoord.xy - 0.5 * iResolution.xy) / iResolution.y;",
    "\tvec3 ro = vec3(0.0, 1.0, 4.0);",
    "\tvec3 rd = normalize(vec3(uv, -1.5));",
    "",
    "\tfloat t = 0.0;",
    "\tfor (int i = 0; i < 128; i++) \x7b",
    "\t\tfloat d = sceneDistance(ro + rd * t);",
    "\t\tif (d < 0.001 || t > 100.0) break;",
    "\t\tt += d;",
    "\t\x7d",
    "",
    "\tvec3 col = vec3(0.05);",
    "\tif (t < 100.0) \x7b",
    "\t\tvec3 n;",
    "\t\tvec3 albedo;",
    "\t\tsceneSurface(ro + rd * t, n, albedo);",
    "\t\tvec3 light = normalize(vec3(1.0, 1.0, 1.0));",
    "\t\tcol = albedo * (0.2 + 0.8 * max(dot(n, light), 0.0));",
    "\t\x7d",
    "",
    "\tfragColor = vec4(col, 1.0);",
    "\x7d"]

/-- The built-in template. -/
def raymarchTemplate : String := String.join (raymarchLines.map (· ++ "\n"))

end FieldShader
